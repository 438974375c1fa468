import ActorTs.Crdt.DecodeCrdt
import ActorTs.Crdt.Rekeying

/-!
# Whether merges of decoded values can be decoded

What a decoder checks falls into two parts. The numbers, the timestamps and the sizes of counters
pass the check after every merge of values that passed it. The sizes of sets, maps and registers do
not: a merge unites them and has no bound.

So the merge of two decoded values is decoded exactly where the unions it forms are small
enough. `MergeFits` counts them over the two values.
-/

namespace ActorTs

open ORSet

namespace Kind

open Outcome

variable {V : Type} (texts : JsonTexts V)

lemma eq_ok_of_atDepth {α : Type} {depth : ℕ} {x : Except CrdtDecodeError α} {a : α}
    (h : atDepth depth x = .ok a) : x = .ok a := by
  unfold atDepth at h
  split at h
  · cases h
  · exact h

lemma Sound.later {now now' : ℚ} (hnow : now ≤ now') (k : Kind) {x : k.Value V}
    (h : Sound now k x) : Sound now' k x := by
  induction k with
  | gCounter | pnCounter | gSet | orSet | gCounterMap | mvRegister => exact h
  | lwwRegister => exact LWWRegister.Plausible.later h hnow
  | lwwMap => exact LWWMap.Plausible.later h hnow
  | orMap k ih => exact fun id entry hentry => ih (h id entry hentry)

lemma Sound.merge {now : ℚ} (k : Kind) {x y : k.Value V} (hx : Sound now k x)
    (hy : Sound now k y) : Sound now k (merge texts k x y) := by
  induction k with
  | gCounter => exact GCounter.Decodable.merge hx hy
  | pnCounter => exact ⟨hx.1.merge hy.1, hx.2.merge hy.2⟩
  | gSet | orSet => exact trivial
  | lwwRegister => exact LWWRegister.Plausible.merge hx hy
  | gCounterMap => exact GCounterMap.sound_merge hx hy
  | lwwMap => exact LWWMap.Plausible.merge hx hy
  | mvRegister => exact MVRegister.sound_merge texts.toTree hx hy
  | orMap k ih =>
    let := crdt texts k
    exact ORMap.allValues_merge (fun v w hv hw => ih hv hw) hx hy

lemma sound_of_decode {now : ℚ} (k : Kind) {json : k.Frame V} {depth : ℕ}
    {identity : Option (Json → JsString)} {x : k.Value V}
    (h : decodeCrdtAtDepth texts now k json depth identity = .ok x) : Sound now k x := by
  induction k generalizing depth identity with
  | gCounter => exact GCounter.decodable_of_fromJSON (eq_ok_of_atDepth h)
  | pnCounter =>
    obtain ⟨p, hp, h⟩ := bind_eq_ok (eq_ok_of_atDepth h)
    obtain ⟨n, hn, h⟩ := bind_eq_ok h
    cases h
    exact ⟨GCounter.decodable_of_fromJSON hp, GCounter.decodable_of_fromJSON hn⟩
  | gSet | orSet => exact trivial
  | lwwRegister => exact LWWRegister.plausible_of_decode (eq_ok_of_atDepth h)
  | gCounterMap => exact GCounterMap.sound_of_fromJSON (eq_ok_of_atDepth h)
  | lwwMap => exact LWWMap.plausible_of_fromJSON (eq_ok_of_atDepth h)
  | mvRegister => exact MVRegister.sound_of_fromJSON (eq_ok_of_atDepth h)
  | orMap k ih =>
    let := crdt texts k
    exact ORMap.allValues_of_fromJSON (fun json v hv => ih hv)
      (fun v w hv hw => Sound.merge texts k hv hw) (eq_ok_of_atDepth h)

/-- The unions that the merge of the two values forms are small enough for the decoder, at
the given depth of nesting. Counters and last-writer-wins registers form none. -/
def MergeFits : (k : Kind) → ℕ → k.Value V → k.Value V → Prop
  | gCounter, depth, _, _ => depth ≤ maxCrdtNestingDepth
  | pnCounter, depth, _, _ => depth ≤ maxCrdtNestingDepth
  | gSet, depth, x, y => depth ≤ maxCrdtNestingDepth ∧
      { key | key ∈ x.elements.keys ∨ key ∈ y.elements.keys }.ncard ≤ maxCrdtEntries
  | orSet, depth, x, y => depth ≤ maxCrdtNestingDepth ∧ ORSet.Fits (ORSet.Survives x y) ∧
      ORSet.Fits fun key tag => ORSet.Removed x key tag ∨ ORSet.Removed y key tag
  | lwwRegister, depth, _, _ => depth ≤ maxCrdtNestingDepth
  | gCounterMap, depth, x, y =>
    depth ≤ maxCrdtNestingDepth ∧ AdmissibleUnion x.entries y.entries
  | lwwMap, depth, x, y => depth ≤ maxCrdtNestingDepth ∧ AdmissibleUnion x.entries y.entries
  | mvRegister, depth, x, y => depth ≤ maxCrdtNestingDepth ∧
      (MVRegister.undominatedKeys texts.toTree x y).ncard ≤ maxMvRegisterEntries
  | orMap k, depth, x, y => depth ≤ maxCrdtNestingDepth ∧ AdmissibleUnion x.entries y.entries ∧
      (ORSet.Fits (x.keyset.Survives y.keyset) ∧
        ORSet.Fits fun key tag => x.keyset.Removed key tag ∨ y.keyset.Removed key tag) ∧
      ORMap.MergedValues (k.Small (depth + 1)) (k.MergeFits (depth + 1)) x y

lemma small_merge_iff (k : Kind) (depth : ℕ) (x y : k.Value V) :
    Small k depth (merge texts k x y) ↔ MergeFits texts k depth x y := by
  induction k generalizing depth with
  | gCounter | pnCounter | lwwRegister => exact Iff.rfl
  | gSet =>
    refine and_congr_right fun _ => ?_
    rw [← GSet.size_merge]
    exact Iff.rfl
  | orSet => exact and_congr_right fun _ => sendable_merge_iff x y
  | gCounterMap | lwwMap =>
    refine and_congr_right fun _ => admissible_iff_union fun key => ?_
    exact OrderedMap.mem_keys_mergeInto _ x.entries y.entries key
  | mvRegister =>
    refine and_congr_right fun _ => ?_
    rw [← MVRegister.length_merge]
    exact Iff.rfl
  | orMap k ih =>
    let := crdt texts k
    refine and_congr_right fun _ => and_congr ?_ (and_congr ?_ ?_)
    · exact admissible_iff_union fun key => ORMap.mem_keys_entries_merge x y key
    · exact sendable_merge_iff x.keyset y.keyset
    · exact ORMap.allValues_merge_iff fun _ entry entry' _ _ =>
        ih (depth + 1) entry.value entry'.value

/-- The merge of two decoded values is decoded exactly where the unions it forms fit: at
every time from when they were read on, and under every identity. -/
theorem decodeCrdt_merge_iff (k : Kind) {nowx nowy now : ℚ} (hnowx : nowx ≤ now)
    (hnowy : nowy ≤ now) {jx jy : k.Frame V} {identity : Option (Json → JsString)}
    {x y : k.Value V} (hx : decodeCrdt texts nowx k jx identity = .ok x)
    (hy : decodeCrdt texts nowy k jy identity = .ok y)
    (identity' : Option (Json → JsString)) :
    (∃ z, decodeCrdt texts now k (toJSON k (merge texts k x y)) identity' = .ok z) ↔
      MergeFits texts k 0 x y := by
  have hsoundx : Sound now k x := (sound_of_decode texts k hx).later hnowx k
  have hsoundy : Sound now k y := (sound_of_decode texts k hy).later hnowy k
  rw [← small_merge_iff]
  refine (yields_decodeCrdtAtDepth texts now k (merge texts k x y) 0 identity').exists_ok_iff.trans
    ?_
  exact and_iff_right (Sound.merge texts k hsoundx hsoundy)

/-- Registers of strings, whose frames are never compared by their texts. -/
def stringTexts : JsonTexts JsString where
  toTree text := some (.str text)
  frameText _ _ := []

lemma decodeCrdt_orSet (now : ℚ) {s : ORSet Json} (h : s.Sendable) :
    decodeCrdt stringTexts now orSet (toJSON orSet s) none = .ok (s.refile none) :=
  (yields_decodeCrdtAtDepth stringTexts now orSet s 0 none).1 ⟨trivial, Nat.zero_le _, h⟩

lemma mergeFits_stamped_iff (n m : ℕ) :
    MergeFits stringTexts orSet 0 ((stamped 0 n).refile none)
      ((stamped n m).refile none) ↔ n + m ≤ maxCrdtEntries := by
  have hsendable := sendable_merge_refile (stamped 0 n) (stamped n m)
  rw [survives_stamped, fits_stamped_iff] at hsendable
  refine (small_merge_iff stringTexts orSet 0 _ _).symm.trans ?_
  refine (and_iff_right (Nat.zero_le _)).trans (hsendable.trans (and_iff_left ?_))
  exact fits_nothing fun key tag => not_or.2
    ⟨not_removed_stamped 0 n key tag, not_removed_stamped n m key tag⟩

/-- Two tags and three more merge to a set that is read. -/
theorem decodeCrdt_merge_stamped :
    ∃ z, decodeCrdt stringTexts 0 orSet (toJSON orSet (merge stringTexts orSet
      ((stamped 0 2).refile none) ((stamped 2 3).refile none))) none = .ok z :=
  (decodeCrdt_merge_iff stringTexts orSet (le_refl 0) (le_refl 0)
    (decodeCrdt_orSet 0 (sendable_stamped 0 (n := 2) (by decide)))
    (decodeCrdt_orSet 0 (sendable_stamped 2 (n := 3) (by decide))) none).2
    ((mergeFits_stamped_iff 2 3).2 (by decide))

/-- An element with as many tags as a frame may list, and one tag more: both frames are
read, and the frame of their merge is refused. -/
theorem not_decodeCrdt_merge_full :
    ∃ x y : ORSet Json,
      decodeCrdt stringTexts 0 orSet (toJSON orSet (stamped 0 4096)) none = .ok x ∧
      decodeCrdt stringTexts 0 orSet (toJSON orSet (stamped 4096 1)) none = .ok y ∧
      ¬ ∃ z, decodeCrdt stringTexts 0 orSet (toJSON orSet (merge stringTexts orSet x y)) none =
        .ok z := by
  refine ⟨_, _, decodeCrdt_orSet 0 (sendable_stamped 0 (le_refl 4096)),
    decodeCrdt_orSet 0 (sendable_stamped 4096 (n := 1) (by decide)), ?_⟩
  intro hdecodes
  have hsmall := ((yields_decodeCrdtAtDepth stringTexts 0 orSet _ 0 none).exists_ok_iff.1
    hdecodes).2
  have hfits := (mergeFits_stamped_iff 4096 1).1 ((small_merge_iff stringTexts orSet 0 _ _).1 hsmall)
  exact absurd hfits (by decide)

end Kind

end ActorTs
