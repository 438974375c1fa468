import ActorTs.Crdt.ORSetWire

/-!
# Learning an element identity late

A replica that does not know a key's identity function yet files the elements it
receives under their JSON texts. When it learns the function it sends its own value
through the encoder and reads it back under that function. The other route is to read
every frame under the function from the start.

The two sets file their tombstones in different buckets: a bucket without an element has nothing to
move with. `Agree` says what they have in common, and every merge keeps it. The other half is that a
route can be taken at all: two sets that pass the decoder may merge to one that does not.
-/

open Option OrderedMap

namespace ActorTs

open Outcome

namespace ORSet

section Agreement

variable {E : Type*}

/-- The sets cannot be told apart by `has`, by their live tags, or by any merge. -/
structure Agree (s t : ORSet E) : Prop where
  identity : s.identity = t.identity
  live : ∀ key tag, s.Live key tag ↔ t.Live key tag
  vetoed : ∀ tag, (∃ key, s.Removed key tag) ↔ ∃ key, t.Removed key tag

/-- What has to be the same on both routes. -/
def SameMembers (s t : ORSet E) : Prop :=
  (∀ element, s.has element = t.has element) ∧ ∀ key tag, s.Live key tag ↔ t.Live key tag

variable {s t : ORSet E}

lemma Agree.sameMembers (h : Agree s t) : SameMembers s t := by
  refine ⟨fun element => ?_, h.live⟩
  rw [Bool.eq_iff_iff, has_iff, has_iff, h.identity]
  exact exists_congr fun tag => h.live _ tag

lemma Agree.merge (h : Agree s t) (u : ORSet E) : Agree (s.merge u) (t.merge u) := by
  refine ⟨h.identity, fun key tag => ?_, fun tag => ?_⟩
  · rw [live_merge, live_merge, h.live]
    refine and_congr_right fun _ => ?_
    simp only [forall_and, ← not_exists, h.vetoed]
  · simp only [removed_merge, exists_or, h.vetoed]

lemma Agree.foldl_merge (h : Agree s t) (further : List (ORSet E)) :
    Agree (further.foldl ORSet.merge s) (further.foldl ORSet.merge t) := by
  induction further generalizing s t with
  | nil => exact h
  | cons u further ih => exact ih (h.merge u)

end Agreement

/-- The sets of the replicas that know no identity function but the default one. -/
inductive OnDefault : ORSet Json → Prop
  | empty : OnDefault (ORSet.empty Json.stringify)
  | add {s t : ORSet Json} {replica : ReplicaId} {element : Json} {draws : ℕ → JsString}
      (hs : OnDefault s) (h : s.add replica element draws = some t) : OnDefault t
  | remove {s : ORSet Json} (hs : OnDefault s) (element : Json) : OnDefault (s.remove element)
  | merge {s t : ORSet Json} (hs : OnDefault s) (ht : OnDefault t) : OnDefault (s.merge t)
  | decode {s t : ORSet Json} (hs : OnDefault s) (h : fromJSON s.toJSON none = .ok t) :
      OnDefault t

/-- Every key is the text of the element it files, up to what JSON says of it. -/
structure TextKeyed (s : ORSet Json) : Prop where
  identity : s.identity = Json.stringify
  element : ∀ key entry, s.elements.get? key = some entry →
    Json.parse key = some entry.element.normal
  trim : s.Trim

namespace TextKeyed

variable {s t : ORSet Json}

lemma addTag (hs : s.TextKeyed) (element : Json) (tag : JsString) :
    (s.addTag element tag).TextKeyed := by
  refine ⟨hs.identity, ?_, trim_addTag hs.trim element tag⟩
  intro key entry hentry
  rcases get?_set_cases hentry with ⟨hkey, rfl⟩ | hentry
  · rw [hkey, hs.identity]
    exact Json.parse_stringify element
  · exact hs.element key entry hentry

lemma remove (hs : s.TextKeyed) (element : Json) : (s.remove element).TextKeyed := by
  refine ⟨(identity_remove s element).trans hs.identity, ?_, trim_remove hs.trim element⟩
  intro key entry hentry
  rcases remove_cases s element with ⟨heq, -⟩ | ⟨_, -, -, heq⟩
  · exact hs.element key entry (heq ▸ hentry)
  · rw [heq] at hentry
    exact hs.element key entry (get?_of_get?_delete hentry)

lemma merge (hs : s.TextKeyed) (ht : t.TextKeyed) : (s.merge t).TextKeyed := by
  refine ⟨hs.identity, ?_, trim_merge s t⟩
  intro key entry hentry
  rw [get?_elements_merge] at hentry
  obtain ⟨e, he | he, helement⟩ := mergeEntry_element hentry
  · exact helement ▸ hs.element key e he
  · exact helement ▸ ht.element key e he

lemma refile_none (hs : s.TextKeyed) : (s.refile none).TextKeyed := by
  refine ⟨rfl, ?_, trim_refile hs.trim none⟩
  intro key entry hentry
  obtain ⟨wireKey, sent, hsent, hkey, helement⟩ := element_refile s none hentry
  obtain rfl : wireKey = key := hkey
  have hnormal : entry.element.normal = sent.element.normal := by
    rw [helement]
    exact Json.normal_normal sent.element
  rw [hs.element wireKey sent hsent, hnormal]

end TextKeyed

variable {s : ORSet Json}

lemma OnDefault.textKeyed (h : OnDefault s) : s.TextKeyed := by
  induction h with
  | empty => exact ⟨rfl, by simp [ORSet.empty], trim_empty _⟩
  | add _ h ih =>
    obtain ⟨tag, -, rfl⟩ := map_eq_some_iff.1 h
    exact ih.addTag _ tag
  | remove _ element ih => exact ih.remove element
  | merge _ _ ihs iht => exact ihs.merge iht
  | decode _ h ih =>
    rw [eq_refile_of_fromJSON h]
    exact ih.refile_none

lemma TextKeyed.live_refile (h : s.TextKeyed) (f : Json → JsString) (key tag : JsString) :
    (s.refile (some f)).Live key tag ↔
      ∃ wireKey element, Json.parse wireKey = some element ∧ f element = key ∧
        s.Live wireKey tag := by
  rw [ORSet.live_refile]
  constructor
  · rintro ⟨wireKey, entry, hentry, hkey, htag⟩
    exact ⟨wireKey, _, h.element wireKey entry hentry, hkey, entry, hentry, htag⟩
  · rintro ⟨wireKey, element, hparse, hkey, entry, hentry, htag⟩
    refine ⟨wireKey, entry, hentry, ?_, htag⟩
    rw [← some.inj ((h.element wireKey entry hentry).symm.trans hparse)] at hkey
    exact hkey

lemma TextKeyed.agree_refile_merge {t : ORSet Json} (hs : s.TextKeyed) (ht : t.TextKeyed)
    (f : Json → JsString) :
    Agree (((s.refile none).merge (t.refile none)).refile (some f))
      ((s.refile (some f)).merge (t.refile (some f))) := by
  have hmerged := hs.refile_none.merge ht.refile_none
  have hvetoed : ∀ tag, (∀ k, ¬ (s.refile (some f)).Removed k tag ∧
      ¬ (t.refile (some f)).Removed k tag) ↔ ∀ k, ¬ s.Removed k tag ∧ ¬ t.Removed k tag := by
    intro tag
    simp only [forall_and, ← not_exists, vetoed_refile]
  refine ⟨rfl, fun key tag => ?_, fun tag => ?_⟩
  · rw [hmerged.live_refile, live_merge, hs.live_refile, ht.live_refile, hvetoed]
    simp only [live_merge, live_refile_none, removed_refile_none]
    constructor
    · rintro ⟨wireKey, element, hparse, hkey, hlive | hlive, hveto⟩
      · exact ⟨.inl ⟨wireKey, element, hparse, hkey, hlive⟩, hveto⟩
      · exact ⟨.inr ⟨wireKey, element, hparse, hkey, hlive⟩, hveto⟩
    · rintro ⟨⟨wireKey, element, hparse, hkey, hlive⟩ | ⟨wireKey, element, hparse, hkey, hlive⟩,
        hveto⟩
      · exact ⟨wireKey, element, hparse, hkey, .inl hlive, hveto⟩
      · exact ⟨wireKey, element, hparse, hkey, .inr hlive, hveto⟩
  · rw [vetoed_refile]
    simp only [removed_merge, exists_or, vetoed_refile]

/-- Both routes can be taken from the two frames, and no further sets that are merged tell
their outcomes apart. -/
def RekeysAlike (a b : ORSetJson) (f : Json → JsString) : Prop :=
  ∃ s t rekeyed early early' : ORSet Json,
    fromJSON a none = .ok s ∧ fromJSON b none = .ok t ∧
    fromJSON (s.merge t).toJSON (some f) = .ok rekeyed ∧
    fromJSON a (some f) = .ok early ∧ fromJSON b (some f) = .ok early' ∧
    ∀ further : List (ORSet Json),
      SameMembers (further.foldl ORSet.merge rekeyed)
        (further.foldl ORSet.merge (early.merge early'))

lemma sendable_merge_refile (s t : ORSet Json) :
    ((s.refile none).merge (t.refile none)).Sendable ↔
      Fits (s.Survives t) ∧ Fits fun key tag => s.Removed key tag ∨ t.Removed key tag := by
  rw [sendable_merge_iff]
  have hsurvives : (s.refile none).Survives (t.refile none) = s.Survives t := by
    funext key tag
    simp only [Survives, live_refile_none, removed_refile_none]
  simp only [hsurvives, removed_refile_none]

lemma RekeysAlike.sendable {t : ORSet Json} {f : Json → JsString}
    (h : RekeysAlike s.toJSON t.toJSON f) :
    s.Sendable ∧ t.Sendable ∧ ((s.refile none).merge (t.refile none)).Sendable := by
  obtain ⟨s', t', rekeyed, _, _, hs', ht', hrekeyed, -⟩ := h
  have hmerged : ∃ r, fromJSON ((s.refile none).merge (t.refile none)).toJSON (some f) = .ok r := by
    rw [← eq_refile_of_fromJSON hs', ← eq_refile_of_fromJSON ht']
    exact ⟨rekeyed, hrekeyed⟩
  exact ⟨(yields_fromJSON s none).exists_ok_iff.1 ⟨s', hs'⟩,
    (yields_fromJSON t none).exists_ok_iff.1 ⟨t', ht'⟩,
    (yields_fromJSON _ (some f)).exists_ok_iff.1 hmerged⟩

/-- Learning the identity late comes to the same exactly where the two frames and that of
their merge are small enough. -/
theorem rekeysAlike_iff {s t : ORSet Json} (hs : OnDefault s) (ht : OnDefault t)
    (f : Json → JsString) :
    RekeysAlike s.toJSON t.toJSON f ↔
      s.Sendable ∧ t.Sendable ∧ Fits (s.Survives t) ∧
        Fits fun key tag => s.Removed key tag ∨ t.Removed key tag := by
  rw [← sendable_merge_refile]
  constructor
  · exact RekeysAlike.sendable
  · rintro ⟨hs', ht', hmerged⟩
    have hagree := hs.textKeyed.agree_refile_merge ht.textKeyed f
    exact ⟨_, _, _, _, _, (yields_fromJSON s none).1 hs', (yields_fromJSON t none).1 ht',
      (yields_fromJSON _ (some f)).1 hmerged, (yields_fromJSON s (some f)).1 hs',
      (yields_fromJSON t (some f)).1 ht',
      fun further => (hagree.foldl_merge further).sameMembers⟩

/-- An element that replicas keep adding. -/
def cartItem : Json := .str "apple"

/-- The tags of one replica, numbered. -/
def numberedTag (n : ℕ) : JsString := "r" ++ "#" ++ JsonText.decimal n

lemma numberedTag_injective : Function.Injective numberedTag := by
  intro n m h
  rw [← JsonText.digitsValue_decimal n, List.append_cancel_left h, JsonText.digitsValue_decimal]

/-- The set whose element has `n` tags, numbered from `start` on. -/
def stamped (start : ℕ) : ℕ → ORSet Json
  | 0 => empty Json.stringify
  | n + 1 => (stamped start n).addTag cartItem (numberedTag (start + n))

variable (start n : ℕ)

lemma identity_stamped : (stamped start n).identity = Json.stringify := by
  induction n with
  | zero => rfl
  | succ n ih => exact ih

lemma live_stamped (key tag : JsString) : (stamped start n).Live key tag ↔
    key = Json.stringify cartItem ∧ ∃ i < n, numberedTag (start + i) = tag := by
  induction n with
  | zero => simp [stamped]
  | succ n ih =>
    rw [stamped, live_addTag, ih, identity_stamped, ← and_or_left]
    refine and_congr_right fun _ => ?_
    constructor
    · rintro (⟨i, hi, htag⟩ | rfl)
      · exact ⟨i, by omega, htag⟩
      · exact ⟨n, by omega, rfl⟩
    · rintro ⟨i, hi, htag⟩
      rcases Nat.lt_succ_iff_lt_or_eq.1 hi with hi | rfl
      · exact .inl ⟨i, hi, htag⟩
      · exact .inr htag.symm

lemma not_removed_stamped (key tag : JsString) : ¬ (stamped start n).Removed key tag := by
  induction n with
  | zero => simp [stamped]
  | succ n ih => exact ih

lemma add_of_fresh {replica suffix : JsString} {element : Json}
    (hlive : ¬ s.Live (s.identity element) (replica ++ "#" ++ suffix))
    (hremoved : ¬ s.Removed (s.identity element) (replica ++ "#" ++ suffix)) :
    s.add replica element (fun _ => suffix) =
      some (s.addTag element (replica ++ "#" ++ suffix)) := by
  have hmint : s.mintTag replica element (fun _ => suffix) = some (replica ++ "#" ++ suffix) := by
    rw [mintTag, randomId_of_free, map_some]
    rw [Bool.or_eq_false_iff]
    constructor
    · cases hentry : s.elements.get? (s.identity element) with
      | none => rfl
      | some entry => exact decide_eq_false fun htag => hlive ⟨entry, hentry, htag⟩
    · cases htags : s.tombstones.get? (s.identity element) with
      | none => rfl
      | some tags => exact decide_eq_false fun htag => hremoved ⟨tags, htags, htag⟩
  rw [add, hmint, map_some]

lemma onDefault_stamped : OnDefault (stamped start n) := by
  induction n with
  | zero => exact .empty
  | succ n ih =>
    refine ih.add (add_of_fresh ?_ (not_removed_stamped start n _ _))
    intro hlive
    obtain ⟨-, i, hi, htag⟩ := (live_stamped start n _ _).1 hlive
    have heq := numberedTag_injective htag
    omega

lemma ncard_numberedTag : { tag | ∃ i < n, numberedTag (start + i) = tag }.ncard = n := by
  have hset : { tag | ∃ i < n, numberedTag (start + i) = tag } =
      (fun i => numberedTag (start + i)) '' (Finset.range n : Set ℕ) := by
    ext tag
    simp
  have hinj : Function.Injective fun i => numberedTag (start + i) :=
    numberedTag_injective.comp (add_right_injective start)
  rw [hset, Set.ncard_image_of_injective _ hinj, Set.ncard_coe_finset, Finset.card_range]

lemma fits_stamped_iff :
    Fits (fun key tag => key = Json.stringify cartItem ∧ ∃ i < n, numberedTag (start + i) = tag) ↔
      n ≤ maxCrdtEntries := by
  have htags := ncard_numberedTag start n
  constructor
  · intro h
    have hle := h.tags (Json.stringify cartItem)
    simpa only [true_and, htags] using hle
  · intro hn
    refine ⟨?_, ?_, ?_⟩
    · refine (Set.ncard_le_ncard (t := {Json.stringify cartItem}) ?_).trans ?_
      · rintro key ⟨_, hkey, -⟩
        exact hkey
      · rw [Set.ncard_singleton]
        decide
    · intro key
      by_cases hkey : key = Json.stringify cartItem
      · simpa only [hkey, true_and, htags] using hn
      · simp [hkey]
    · rintro tag ⟨hkey, -⟩
      exact absurd hkey (by decide)

lemma fits_nothing {filed : JsString → JsString → Prop} (h : ∀ key tag, ¬ filed key tag) :
    Fits filed := by
  refine ⟨?_, ?_, h protoKey⟩ <;> simp [h]

lemma sendable_stamped {n : ℕ} (hn : n ≤ maxCrdtEntries) : (stamped start n).Sendable := by
  refine (sendable_iff (onDefault_stamped start n).textKeyed.trim).2 ⟨?_, ?_⟩
  · have hlive : (stamped start n).Live = fun key tag =>
        key = Json.stringify cartItem ∧ ∃ i < n, numberedTag (start + i) = tag := by
      funext key tag
      exact propext (live_stamped start n key tag)
    rw [hlive]
    exact (fits_stamped_iff start n).2 hn
  · exact fits_nothing (not_removed_stamped start n)

lemma survives_stamped (m : ℕ) :
    (stamped 0 n).Survives (stamped n m) = fun key tag =>
      key = Json.stringify cartItem ∧ ∃ i < n + m, numberedTag (0 + i) = tag := by
  funext key tag
  refine propext ?_
  simp only [Survives, live_stamped, not_removed_stamped, not_false_eq_true, and_self,
    implies_true, and_true, ← and_or_left, Nat.zero_add]
  refine and_congr_right fun _ => ?_
  constructor
  · rintro (⟨i, hi, htag⟩ | ⟨i, hi, htag⟩)
    · exact ⟨i, by omega, htag⟩
    · exact ⟨n + i, by omega, htag⟩
  · rintro ⟨i, hi, htag⟩
    by_cases hin : i < n
    · exact .inl ⟨i, hin, htag⟩
    · refine .inr ⟨i - n, by omega, ?_⟩
      rwa [Nat.add_sub_cancel' (not_lt.1 hin)]

/-- Two tags and three more can be re-keyed. -/
theorem rekeysAlike_stamped : OnDefault (stamped 0 2) ∧ OnDefault (stamped 2 3) ∧
    RekeysAlike (stamped 0 2).toJSON (stamped 2 3).toJSON Json.stringify := by
  refine ⟨onDefault_stamped 0 2, onDefault_stamped 2 3, ?_⟩
  refine (rekeysAlike_iff (onDefault_stamped 0 2) (onDefault_stamped 2 3) _).2
    ⟨sendable_stamped 0 (by decide), sendable_stamped 2 (by decide), ?_, ?_⟩
  · rw [survives_stamped]
    exact (fits_stamped_iff 0 5).2 (by decide)
  · exact fits_nothing fun key tag => not_or.2
      ⟨not_removed_stamped 0 2 key tag, not_removed_stamped 2 3 key tag⟩

/-- An element with as many tags as a frame may list, and one replica that adds it once
more: both frames are read, every tag is another, none is tombstoned, and the value they
merge to cannot be re-keyed. -/
theorem not_rekeysAlike_full :
    OnDefault (stamped 0 4096) ∧ OnDefault (stamped 4096 1) ∧
    (stamped 0 4096).Sendable ∧ (stamped 4096 1).Sendable ∧
    (∀ key tag, (stamped 0 4096).Live key tag → ¬ ∃ key', (stamped 4096 1).Live key' tag) ∧
    (∀ key tag, ¬ (stamped 0 4096).Removed key tag ∧ ¬ (stamped 4096 1).Removed key tag) ∧
    ¬ RekeysAlike (stamped 0 4096).toJSON (stamped 4096 1).toJSON Json.stringify := by
  refine ⟨onDefault_stamped _ _, onDefault_stamped _ _, sendable_stamped 0 (le_refl 4096),
    sendable_stamped 4096 (by decide), ?_, ?_, ?_⟩
  · rintro key tag hlive ⟨key', hlive'⟩
    obtain ⟨-, i, hi, htag⟩ := (live_stamped _ _ _ _).1 hlive
    obtain ⟨-, j, hj, htag'⟩ := (live_stamped _ _ _ _).1 hlive'
    have heq := numberedTag_injective (htag.trans htag'.symm)
    omega
  · exact fun key tag => ⟨not_removed_stamped 0 4096 key tag, not_removed_stamped 4096 1 key tag⟩
  · intro h
    have hfits := ((sendable_merge_refile _ _).1 h.sendable.2.2).1
    rw [survives_stamped] at hfits
    exact absurd ((fits_stamped_iff 0 4097).1 hfits) (by decide)

end ORSet

end ActorTs
