import ActorTs.Library.Json
import ActorTs.Crdt.ORSet

/-!
# The multi-value register

Every write carries a vector clock. A merge keeps the writes of both sides that no other strictly
dominates, and of two that say the same in value and clock it keeps one. The loop does not compare a
write with one already known to be dominated, and loses nothing by that, whatever the clocks are.

Clocks are read through `version`, in which a replica that is not mentioned
counts as zero.
-/

open List Option OrderedMap Nat OrderedSet

namespace ActorTs

abbrev VectorClock := OrderedMap ReplicaId ℕ

namespace VectorClock

def version (vc : VectorClock) (r : ReplicaId) : ℕ := (vc.get? r).getD 0

/-- The walk over the entries of the dominated clock. `none` is the early exit at
a replica where the other clock is behind. -/
def dominatesFrom (a : VectorClock) : List (ReplicaId × ℕ) → Bool → Option Bool
  | [], strict => some strict
  | (k, vb) :: rest, strict =>
    let va := a.version k
    if va < vb then none else dominatesFrom a rest (if va > vb then true else strict)

def vcStrictlyDominates (a b : VectorClock) : Bool :=
  match dominatesFrom a b.entries false with
  | none => false
  | some strict =>
    a.entries.foldl (fun strict p => if !b.has p.1 && p.2 > 0 then true else strict) strict

def vcEqual (left right : VectorClock) : Bool := left.equalsBy (· == ·) right

end VectorClock

structure MVEntry (V : Type*) where
  value : V
  vc : VectorClock

structure MVRegister (V : Type*) where
  entries : List (MVEntry V)

namespace MVRegister

open JsonText

variable {V : Type*}

def empty : MVRegister V := ⟨[]⟩

/-- Raise the clock to the versions of another. -/
def raise (max vc : VectorClock) : VectorClock :=
  vc.entries.foldl (fun max p => if p.2 > max.version p.1 then max.set p.1 p.2 else max) max

/-- The clock a write gets: the largest version of every replica over the entries
in the register, with a tick for the writer. -/
def nextClock (s : MVRegister V) (replica : ReplicaId) : VectorClock :=
  let max := s.entries.foldl (fun max entry => raise max entry.vc) OrderedMap.empty
  max.set replica (max.version replica + 1)

def assign (s : MVRegister V) (replica : ReplicaId) (value : V) : MVRegister V :=
  ⟨[⟨value, s.nextClock replica⟩]⟩

def values (s : MVRegister V) : List V := s.entries.map MVEntry.value

def hasConflict (s : MVRegister V) : Bool := s.entries.length > 1

def size (s : MVRegister V) : ℕ := s.entries.length

/-- The JSON text of a replica and its version. -/
def versionText (p : ReplicaId × ℕ) : JsString :=
  0x5B :: (quote p.1 ++ 0x2C :: (decimal p.2 ++ [0x5D]))

/-- The versions behind the first, and the closing bracket. -/
def versionsText : List (ReplicaId × ℕ) → JsString
  | [] => [0x5D]
  | p :: ps => 0x2C :: (versionText p ++ versionsText ps)

def clockText : List (ReplicaId × ℕ) → JsString
  | [] => [0x5B, 0x5D]
  | p :: ps => 0x5B :: (versionText p ++ versionsText ps)

/-- What two entries agree in when they are the same: the JSON text of the pair
of the value and the clock, sorted by replica. `toTree` is what JSON can say of a
value, `none` for `undefined`, which counts as `null` inside an array. -/
def dedupeKey (toTree : V → Option Json) (entry : MVEntry V) : JsString :=
  0x5B :: (((toTree entry.value).getD .null).stringify ++
    0x2C :: (clockText (entry.vc.entries.mergeSort fun a b => decide (a.1 ≤ b.1)) ++ [0x5D]))

/-- An entry and its place among all entries, which stands for the identity of
the entry object. -/
abbrev Placed (V : Type*) := MVEntry V × ℕ

/-- Some entry other than this one, and not known to be dominated itself,
dominates it. -/
def isDominated (all : List (Placed V)) (dominated : List ℕ) (entry : Placed V) : Bool :=
  all.any fun other => !(other.2 == entry.2 || dominated.contains other.2) &&
    VectorClock.vcStrictlyDominates other.1.vc entry.1.vc

/-- The merge loop over the entries still to come, with the places found
dominated and the keys seen so far. -/
def survivors (toTree : V → Option Json) (all : List (Placed V)) :
    List (Placed V) → List ℕ → OrderedSet JsString → List (MVEntry V)
  | [], _, _ => []
  | entry :: rest, dominated, seen =>
    if dominated.contains entry.2 then survivors toTree all rest dominated seen
    else if isDominated all dominated entry then
      survivors toTree all rest (entry.2 :: dominated) seen
    else
      let key := dedupeKey toTree entry.1
      if seen.has key then survivors toTree all rest dominated seen
      else entry.1 :: survivors toTree all rest dominated (seen.add key)

def merge (toTree : V → Option Json) (s other : MVRegister V) : MVRegister V :=
  let all := (s.entries ++ other.entries).zipIdx
  ⟨survivors toTree all all [] OrderedSet.empty⟩

def equals (toTree : V → Option Json) (s other : MVRegister V) : Bool :=
  s.entries.length == other.entries.length &&
    s.entries.all fun a => other.entries.any fun b =>
      (toTree a.value).map Json.stringify == (toTree b.value).map Json.stringify &&
        VectorClock.vcEqual a.vc b.vc

def survivorsAllPairs (toTree : V → Option Json) (all : List (MVEntry V)) :
    List (MVEntry V) → OrderedSet JsString → List (MVEntry V)
  | [], _ => []
  | entry :: rest, seen =>
    if all.any fun other => VectorClock.vcStrictlyDominates other.vc entry.vc then
      survivorsAllPairs toTree all rest seen
    else
      let key := dedupeKey toTree entry
      if seen.has key then survivorsAllPairs toTree all rest seen
      else entry :: survivorsAllPairs toTree all rest (seen.add key)

def mergeAllPairs (toTree : V → Option Json) (s other : MVRegister V) : MVRegister V :=
  ⟨survivorsAllPairs toTree (s.entries ++ other.entries) (s.entries ++ other.entries)
    OrderedSet.empty⟩

end MVRegister

namespace VectorClock

/-- The clock is nowhere behind the other, and somewhere ahead. -/
def Dominates (a b : VectorClock) : Prop :=
  (∀ r, b.version r ≤ a.version r) ∧ ∃ r, b.version r < a.version r

lemma not_dominates_self (a : VectorClock) : ¬ a.Dominates a := by
  rintro ⟨-, r, hr⟩
  exact lt_irrefl _ hr

lemma Dominates.trans {a b c : VectorClock} (hab : a.Dominates b) (hbc : b.Dominates c) :
    a.Dominates c := by
  obtain ⟨r, hr⟩ := hbc.2
  exact ⟨fun r => (hbc.1 r).trans (hab.1 r), r, hr.trans_le (hab.1 r)⟩

lemma version_of_mem {vc : VectorClock} {p : ReplicaId × ℕ} (h : p ∈ vc.entries) :
    vc.version p.1 = p.2 := by
  rw [version, (get?_eq_some_iff vc p.1 p.2).2 h, getD_some]

lemma mem_of_version_pos {vc : VectorClock} {r : ReplicaId} (h : 0 < vc.version r) :
    (r, vc.version r) ∈ vc.entries := by
  unfold version at h ⊢
  cases hget : vc.get? r with
  | none => simp [hget] at h
  | some n => exact (get?_eq_some_iff vc r n).1 hget

lemma dominatesFrom_eq (a : VectorClock) (l : List (ReplicaId × ℕ)) (strict : Bool) :
    dominatesFrom a l strict =
      if ∀ p ∈ l, p.2 ≤ a.version p.1 then
        some (strict || l.any fun p => decide (p.2 < a.version p.1))
      else none := by
  induction l generalizing strict with
  | nil => simp [dominatesFrom]
  | cons p l ih =>
    by_cases hp : a.version p.1 < p.2
    · have hnot : ¬ ∀ q ∈ p :: l, q.2 ≤ a.version q.1 := fun h =>
        absurd (h p (by simp)) (not_le.2 hp)
      simp [dominatesFrom, hp]
    · have hiff : (∀ q ∈ p :: l, q.2 ≤ a.version q.1) ↔ ∀ q ∈ l, q.2 ≤ a.version q.1 := by
        simp [not_lt.1 hp]
      simp only [dominatesFrom, hp, if_false, ih, hiff, any_cons]
      by_cases hlt : p.2 < a.version p.1
      · simp [hlt]
      · simp [hlt]

lemma foldl_flag {α : Type*} (c : α → Bool) (l : List α) (strict : Bool) :
    l.foldl (fun strict p => if c p then true else strict) strict = (strict || l.any c) := by
  induction l generalizing strict with
  | nil => simp
  | cons p l ih =>
    rw [foldl_cons, ih, any_cons]
    cases c p <;> simp

lemma vcStrictlyDominates_iff (a b : VectorClock) :
    vcStrictlyDominates a b = true ↔ a.Dominates b := by
  have hle : (∀ p ∈ b.entries, p.2 ≤ a.version p.1) ↔ ∀ r, b.version r ≤ a.version r := by
    constructor
    · intro h r
      rcases Nat.eq_zero_or_pos (b.version r) with hzero | hpos
      · omega
      · exact h _ (mem_of_version_pos hpos)
    · intro h p hp
      rw [← version_of_mem hp]
      exact h p.1
  rw [vcStrictlyDominates, dominatesFrom_eq]
  by_cases hall : ∀ p ∈ b.entries, p.2 ≤ a.version p.1
  · rw [if_pos hall]
    simp only [foldl_flag]
    simp only [Bool.false_or, Bool.or_eq_true, List.any_eq_true, decide_eq_true_eq,
      Bool.and_eq_true, Bool.not_eq_true']
    constructor
    · rintro (⟨p, hp, hlt⟩ | ⟨p, hp, hhas, hpos⟩)
      · exact ⟨hle.1 hall, p.1, by rwa [version_of_mem hp]⟩
      · have hnone : b.get? p.1 = none := by simpa [OrderedMap.has] using hhas
        refine ⟨hle.1 hall, p.1, ?_⟩
        rw [version_of_mem hp, version, hnone]
        exact hpos
    · rintro ⟨-, r, hr⟩
      cases hget : b.get? r with
      | some n =>
        have hb : b.version r = n := by rw [version, hget, Option.getD_some]
        exact .inl ⟨(r, n), (OrderedMap.get?_eq_some_iff b r n).1 hget, hb ▸ hr⟩
      | none =>
        refine .inr ⟨(r, a.version r), mem_of_version_pos (by omega), ?_, by omega⟩
        simp [OrderedMap.has, hget]
  · rw [if_neg hall]
    simp only [Bool.false_eq_true, false_iff]
    exact fun h => hall (hle.2 h.1)

end VectorClock

namespace MVRegister

open VectorClock JsonText

variable {V : Type*} {all : List (Placed V)}

lemma exists_undominated (l : List (MVEntry V)) {e : MVEntry V} (he : e ∈ l) :
    ∃ o ∈ l, (o = e ∨ o.vc.Dominates e.vc) ∧ ∀ x ∈ l, ¬ x.vc.Dominates o.vc := by
  let r : { x // x ∈ l } → { x // x ∈ l } → Prop := fun x y => x.1.vc.Dominates y.1.vc
  have htrans : IsTrans _ r := ⟨fun _ _ _ hab hbc => hab.trans hbc⟩
  have hirrefl : Std.Irrefl r := ⟨fun x => not_dominates_self x.1.vc⟩
  have hfinite : Finite { x // x ∈ l } := finite_toSet l
  have hwf : WellFounded r := Finite.wellFounded_of_trans_of_irrefl r
  obtain ⟨o, ho, hmin⟩ := hwf.has_min { x | x.1 = e ∨ x.1.vc.Dominates e.vc } ⟨⟨e, he⟩, .inl rfl⟩
  refine ⟨o.1, o.2, ho, ?_⟩
  intro x hx hdom
  refine hmin ⟨x, hx⟩ (.inr ?_) hdom
  rcases ho with ho | ho
  · exact ho ▸ hdom
  · exact hdom.trans ho

lemma isDominated_iff {dominated : List ℕ} {entry : Placed V}
    (hplace : ∀ a b i, (a, i) ∈ all → (b, i) ∈ all → a = b) (hentry : entry ∈ all)
    (hdominated : ∀ e i, (e, i) ∈ all → i ∈ dominated → ∃ o ∈ all, o.1.vc.Dominates e.vc) :
    isDominated all dominated entry = true ↔ ∃ o ∈ all, o.1.vc.Dominates entry.1.vc := by
  simp only [isDominated, List.any_eq_true, Bool.and_eq_true, Bool.not_eq_true',
    Bool.or_eq_false_iff, vcStrictlyDominates_iff]
  constructor
  · rintro ⟨o, ho, -, hdom⟩
    exact ⟨o, ho, hdom⟩
  · rintro ⟨o, ho, hdom⟩
    obtain ⟨y, hy, hyo, hmax⟩ := exists_undominated (all.map Prod.fst) (List.mem_map_of_mem ho)
    have hydom : y.vc.Dominates entry.1.vc := by
      rcases hyo with hyo | hyo
      · exact hyo ▸ hdom
      · exact hyo.trans hdom
    obtain ⟨⟨y, i⟩, hyi, rfl⟩ := List.mem_map.1 hy
    refine ⟨(y, i), hyi, ⟨?_, ?_⟩, hydom⟩
    · rw [beq_eq_false_iff_ne]
      rintro rfl
      rw [hplace y entry.1 entry.2 hyi hentry] at hydom
      exact not_dominates_self _ hydom
    · rw [List.contains_eq_mem, decide_eq_false_iff_not]
      intro hi
      obtain ⟨x, hx, hxy⟩ := hdominated y i hyi hi
      exact hmax x.1 (List.mem_map_of_mem hx) hxy

variable (toTree : V → Option Json)

lemma survivors_eq (hplace : ∀ a b i, (a, i) ∈ all → (b, i) ∈ all → a = b)
    (rest : List (Placed V)) (hrest : ∀ entry ∈ rest, entry ∈ all) (dominated : List ℕ)
    (hdominated : ∀ e i, (e, i) ∈ all → i ∈ dominated → ∃ o ∈ all, o.1.vc.Dominates e.vc)
    (seen : OrderedSet JsString) :
    survivors toTree all rest dominated seen =
      survivorsAllPairs toTree (all.map Prod.fst) (rest.map Prod.fst) seen := by
  induction rest generalizing dominated seen with
  | nil => rfl
  | cons entry rest ih =>
    have hentry := hrest entry List.mem_cons_self
    have ih := ih fun e he => hrest e (mem_cons_of_mem _ he)
    have hpairs : ((all.map Prod.fst).any fun other =>
        vcStrictlyDominates other.vc entry.1.vc) = true ↔
          ∃ o ∈ all, o.1.vc.Dominates entry.1.vc := by
      simp only [List.any_map, List.any_eq_true, Function.comp, vcStrictlyDominates_iff]
    rw [survivors, List.map_cons, survivorsAllPairs]
    by_cases hknown : dominated.contains entry.2 = true
    · have hmem : entry.2 ∈ dominated := by simpa using hknown
      rw [if_pos hknown, if_pos (hpairs.2 (hdominated entry.1 entry.2 hentry hmem)),
        ih dominated hdominated]
    rw [if_neg hknown]
    by_cases hdom : ∃ o ∈ all, o.1.vc.Dominates entry.1.vc
    · rw [if_pos ((isDominated_iff hplace hentry hdominated).2 hdom), if_pos (hpairs.2 hdom)]
      refine ih _ ?_ seen
      intro e i hei hi
      rcases List.mem_cons.1 hi with rfl | hi
      · rw [hplace e entry.1 entry.2 hei hentry]
        exact hdom
      · exact hdominated e i hei hi
    · rw [if_neg fun h => hdom ((isDominated_iff hplace hentry hdominated).1 h),
        if_neg fun h => hdom (hpairs.1 h)]
      simp only [ih dominated hdominated]

variable (s : MVRegister V) {ps qs : List (ReplicaId × ℕ)}

lemma merge_eq_mergeAllPairs (other : MVRegister V) :
    s.merge toTree other = s.mergeAllPairs toTree other := by
  have hplace : ∀ a b i, (a, i) ∈ (s.entries ++ other.entries).zipIdx →
      (b, i) ∈ (s.entries ++ other.entries).zipIdx → a = b := by
    intro a b i ha hb
    rw [mk_mem_zipIdx_iff_getElem?] at ha hb
    rw [ha, some.injEq] at hb
    exact hb
  rw [merge, mergeAllPairs]
  simp only [survivors_eq toTree hplace _ (fun _ h => h) [] (by simp), zipIdx_map_fst]

lemma versionText_append_inj {p q : ReplicaId × ℕ} {a b : JsString}
    (h : versionText p ++ a = versionText q ++ b) : p = q ∧ a = b := by
  simp only [versionText, List.cons_append, List.append_assoc, List.cons.injEq, true_and] at h
  obtain ⟨hreplica, hrest⟩ := quote_append_inj h
  rw [List.cons.injEq] at hrest
  obtain ⟨hversion, hrest⟩ := decimal_append_inj (noDigit_cons (by decide))
    (noDigit_cons (by decide)) hrest.2
  exact ⟨Prod.ext hreplica hversion, by simpa using hrest⟩

lemma versionsText_append_inj {a b : JsString} (h : versionsText ps ++ a = versionsText qs ++ b) :
    ps = qs := by
  induction ps generalizing qs with
  | nil =>
    cases qs with
    | nil => rfl
    | cons q qs => simp [versionsText] at h
  | cons p ps ih =>
    cases qs with
    | nil => simp [versionsText] at h
    | cons q qs =>
      simp only [versionsText, List.cons_append, List.append_assoc, List.cons.injEq, true_and] at h
      obtain ⟨hpq, hrest⟩ := versionText_append_inj h
      rw [hpq, ih hrest]

lemma clockText_append_inj {a b : JsString} (h : clockText ps ++ a = clockText qs ++ b) :
    ps = qs := by
  cases ps with
  | nil =>
    cases qs with
    | nil => rfl
    | cons q qs => simp [clockText, versionText] at h
  | cons p ps =>
    cases qs with
    | nil => simp [clockText, versionText] at h
    | cons q qs =>
      simp only [clockText, List.cons_append, List.append_assoc, List.cons.injEq, true_and] at h
      obtain ⟨hpq, hrest⟩ := versionText_append_inj h
      rw [hpq, versionsText_append_inj hrest]

lemma version_eq_of_dedupeKey {toTree : V → Option Json} {e e' : MVEntry V}
    (h : dedupeKey toTree e = dedupeKey toTree e') : e.vc.version = e'.vc.version := by
  have hcomma : ∀ text : JsString, EndsNumber (0x2C :: text) :=
    Json.endsNumber_cons (by decide) (by decide)
  obtain ⟨-, hclock⟩ := Json.stringify_append_inj (hcomma _) (hcomma _) (List.cons.inj h).2
  have hsorted := clockText_append_inj (List.cons.inj hclock).2
  have hperm : e.vc.entries.Perm e'.vc.entries := by
    have hleft := mergeSort_perm e.vc.entries fun a b => decide (a.1 ≤ b.1)
    rw [hsorted] at hleft
    exact hleft.symm.trans (mergeSort_perm _ _)
  funext r
  have hget : e.vc.get? r = e'.vc.get? r := by
    ext n
    simp only [get?_eq_some_iff, hperm.mem_iff]
  rw [version, version, hget]

lemma version_set (vc : VectorClock) (k r : ReplicaId) (n : ℕ) :
    version (vc.set k n) r = if k = r then n else vc.version r := by
  unfold version
  rw [get?_set]
  split <;> rfl

lemma version_raise (max vc : VectorClock) (r : ReplicaId) :
    (raise max vc).version r = Nat.max (max.version r) (vc.version r) := by
  have hfold : ∀ (l : List (ReplicaId × ℕ)) (max : VectorClock), (l.map Prod.fst).Nodup →
      version (l.foldl (fun max p =>
        if p.2 > max.version p.1 then max.set p.1 p.2 else max) max) r =
        Nat.max (max.version r) ((OrderedMap.lookup r l).getD 0) := by
    intro l
    induction l with
    | nil => simp [OrderedMap.lookup]
    | cons p l ih =>
      intro max hl
      rw [map_cons, nodup_cons] at hl
      rw [foldl_cons, ih _ hl.2, OrderedMap.lookup]
      by_cases hr : p.1 = r
      · have hnone : OrderedMap.lookup r l = none := by
          cases hlook : OrderedMap.lookup r l with
          | none => rfl
          | some a =>
            exact absurd (List.mem_map.2 ⟨_, OrderedMap.mem_of_lookup_eq_some hlook, hr.symm⟩) hl.1
        rw [hnone, if_pos hr]
        split
        · rename_i hgt
          rw [version_set, if_pos hr]
          rw [hr] at hgt
          simp only [getD_none, getD_some, max_def]
          split <;> split <;> omega
        · rename_i hle
          rw [hr] at hle
          simp only [getD_none, getD_some, max_def]
          split <;> split <;> omega
      · rw [if_neg hr]
        split
        · rw [version_set, if_neg hr]
        · rfl
  exact hfold vc.entries max vc.nodupKeys

/-- The largest version of a replica over the entries of a register. -/
def maxVersion (s : MVRegister V) (r : ReplicaId) : ℕ :=
  version (s.entries.foldl (fun max entry => raise max entry.vc) OrderedMap.empty) r

lemma maxVersion_le_iff (r : ReplicaId) (c : ℕ) :
    s.maxVersion r ≤ c ↔ ∀ e ∈ s.entries, e.vc.version r ≤ c := by
  have hfold : ∀ (l : List (MVEntry V)) (max : VectorClock),
      version (l.foldl (fun max entry => raise max entry.vc) max) r ≤ c ↔
        max.version r ≤ c ∧ ∀ e ∈ l, e.vc.version r ≤ c := by
    intro l
    induction l with
    | nil => simp
    | cons e l ih =>
      intro max
      rw [foldl_cons, ih, version_raise]
      simp only [List.forall_mem_cons, ← and_assoc]
      exact and_congr_left fun _ => Nat.max_le
  have hempty : version OrderedMap.empty r = 0 := rfl
  rw [maxVersion, hfold, hempty]
  simp

lemma version_nextClock (replica r : ReplicaId) :
    (s.nextClock replica).version r = s.maxVersion r + if replica = r then 1 else 0 := by
  rw [nextClock, version_set]
  by_cases hr : replica = r
  · subst hr
    rw [if_pos rfl, if_pos rfl]
    rfl
  · rw [if_neg hr, if_neg hr]
    rfl

/-- No entry of the list dominates `e`. -/
def Undominated (all : List (MVEntry V)) (e : MVEntry V) : Prop :=
  ∀ o ∈ all, ¬ o.vc.Dominates e.vc

lemma any_dominates_iff (all : List (MVEntry V)) (e : MVEntry V) :
    (all.any fun o => vcStrictlyDominates o.vc e.vc) = true ↔ ¬ Undominated all e := by
  simp [Undominated, vcStrictlyDominates_iff]

lemma survivorsAllPairs_spec (all rest : List (MVEntry V)) (seen : OrderedSet JsString) :
    (∀ e ∈ survivorsAllPairs toTree all rest seen,
        e ∈ rest ∧ Undominated all e ∧ dedupeKey toTree e ∉ seen) ∧
      (∀ e ∈ rest, Undominated all e → dedupeKey toTree e ∈ seen ∨
        ∃ e' ∈ survivorsAllPairs toTree all rest seen, dedupeKey toTree e' = dedupeKey toTree e) ∧
      (survivorsAllPairs toTree all rest seen).Pairwise fun a b =>
        dedupeKey toTree a ≠ dedupeKey toTree b := by
  induction rest generalizing seen with
  | nil => simp [survivorsAllPairs]
  | cons entry rest ih =>
    rw [survivorsAllPairs]
    by_cases hdom : (all.any fun o => vcStrictlyDominates o.vc entry.vc) = true
    · rw [if_pos hdom]
      rw [any_dominates_iff] at hdom
      obtain ⟨hsound, hcomplete, hkeys⟩ := ih seen
      refine ⟨?_, ?_, hkeys⟩
      · intro e he
        exact ⟨mem_cons_of_mem _ (hsound e he).1, (hsound e he).2⟩
      · intro e he hund
        rcases List.mem_cons.1 he with rfl | he
        · exact absurd hund hdom
        · exact hcomplete e he hund
    rw [if_neg hdom]
    rw [any_dominates_iff, not_not] at hdom
    by_cases hseen : seen.has (dedupeKey toTree entry) = true
    · obtain ⟨hsound, hcomplete, hkeys⟩ := ih seen
      simp only [hseen, if_true]
      refine ⟨?_, ?_, hkeys⟩
      · intro e he
        exact ⟨mem_cons_of_mem _ (hsound e he).1, (hsound e he).2⟩
      · intro e he hund
        rcases List.mem_cons.1 he with rfl | he
        · exact .inl ((OrderedSet.has_iff _ _).1 hseen)
        · exact hcomplete e he hund
    · obtain ⟨hsound, hcomplete, hkeys⟩ := ih (seen.add (dedupeKey toTree entry))
      simp only [hseen, if_false, Bool.false_eq_true]
      refine ⟨?_, ?_, ?_⟩
      · intro e he
        rcases List.mem_cons.1 he with rfl | he
        · exact ⟨List.mem_cons_self, hdom, fun h => hseen ((OrderedSet.has_iff _ _).2 h)⟩
        · obtain ⟨hmem, hund, hnot⟩ := hsound e he
          exact ⟨mem_cons_of_mem _ hmem, hund, fun h => hnot ((mem_add _ _ _).2 (.inr h))⟩
      · intro e he hund
        rcases List.mem_cons.1 he with rfl | he
        · exact .inr ⟨_, List.mem_cons_self, rfl⟩
        · rcases hcomplete e he hund with h | ⟨e', he', hkey⟩
          · rcases (mem_add _ _ _).1 h with h | h
            · exact .inr ⟨entry, List.mem_cons_self, h.symm⟩
            · exact .inl h
          · exact .inr ⟨e', mem_cons_of_mem _ he', hkey⟩
      · refine List.pairwise_cons.2 ⟨?_, hkeys⟩
        intro e he hkey
        exact (hsound e he).2.2 ((mem_add _ _ _).2 (.inl hkey.symm))

lemma vcEqual_self (vc : VectorClock) : vcEqual vc vc = true := by
  refine (equalsBy_iff _ _ _).2 fun k => ?_
  cases vc.get? k with
  | none => exact .inl ⟨rfl, rfl⟩
  | some n => exact .inr ⟨n, n, rfl, rfl, by simp⟩

lemma equals_of_subset {s other : MVRegister V} (hlen : s.entries.length = other.entries.length)
    (hsub : ∀ e ∈ s.entries, e ∈ other.entries) : s.equals toTree other = true := by
  rw [equals, Bool.and_eq_true, beq_iff_eq, List.all_eq_true]
  refine ⟨hlen, fun e he => ?_⟩
  rw [List.any_eq_true]
  exact ⟨e, hsub e he, by simp [vcEqual_self]⟩

end MVRegister

end ActorTs
