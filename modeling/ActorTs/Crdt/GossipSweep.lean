import ActorTs.Crdt.GossipPacking

/-!
# A sweep of the whole store

A store that is too large for one frame is sent in slices, and the cursor goes on behind each by as
many keys as it has passed. A slice passes one key at least. So a key comes nearer to the cursor
with every call until it is passed, and if it fits a frame of its own it is packed then.
-/

open List

namespace ActorTs.DistributedData

open Serialization

/-- The keys that a call has packed. -/
def PackedGossip.keys (packed : PackedGossip) : List JsString :=
  (packed.entries.getD []).map Prod.fst

namespace Gossiper

variable {C : Type} (g : Gossiper C)

/-- As many calls one after the other, each from where the one before it left the cursor. -/
def calls : ℕ → Gossiper C → Except SerializationError (List PackedGossip)
  | 0, _ => .ok []
  | n + 1, g => do
      let packed ← g.packGossipEntries
      let later ← calls n { g with gossipCursor := packed.gossipCursor }
      return packed :: later

/-- The key is packed, or it cannot be encoded, or it is too large for a frame of its own. -/
def Passed (envelopeBytes : ℕ) (packed : List JsString) (key : JsString) : Prop :=
  key ∈ packed ∨ g.measureGossipEntry key = none ∨ ∃ measured,
    g.measureGossipEntry key = some measured ∧
      g.gossipBudgetBytes < ↑(envelopeBytes + measured.bytes)

variable {g} {envelopeBytes : ℕ}

lemma Passed.mono {packed packed' : List JsString} (h : packed ⊆ packed') {key : JsString}
    (hkey : g.Passed envelopeBytes packed key) : g.Passed envelopeBytes packed' key :=
  hkey.imp_left fun hmem => h hmem

variable (g envelopeBytes)

/-- The loop passes the keys that it advances over, and it advances over the first. -/
def PassesFrom (keys : List JsString) (p : Packing) : Prop :=
  ∃ k, (g.packKeys envelopeBytes keys p).advance = p.advance + k ∧
    (keys ≠ [] → p.used = envelopeBytes → 0 < k) ∧ ∀ key ∈ keys.take k,
      g.Passed envelopeBytes ((g.packKeys envelopeBytes keys p).packed.map Prod.fst) key

variable {g envelopeBytes}

lemma PassesFrom.cons {key : JsString} {keys : List JsString} {p p' : Packing}
    (h : g.PassesFrom envelopeBytes keys p') (hadvance : p'.advance = p.advance + 1)
    (heq : g.packKeys envelopeBytes (key :: keys) p = g.packKeys envelopeBytes keys p')
    (hkey : g.Passed envelopeBytes (p'.packed.map Prod.fst) key) :
    g.PassesFrom envelopeBytes (key :: keys) p := by
  obtain ⟨k, hrest, -, hpassed⟩ := h
  rw [PassesFrom, heq]
  refine ⟨k + 1, by omega, fun _ _ => Nat.succ_pos k, ?_⟩
  rw [take_succ_cons, forall_mem_cons]
  refine ⟨hkey.mono (map_subset _ ?_), hpassed⟩
  rw [packKeys_packed]
  exact subset_append_left _ _

variable (g)

lemma passesFrom (keys : List JsString) (p : Packing) : g.PassesFrom envelopeBytes keys p := by
  induction keys generalizing p with
  | nil => exact ⟨0, rfl, fun h => absurd rfl h, by simp⟩
  | cons key keys ih =>
    have hnote : ∀ measured, (g.noteLarge key measured p).advance = p.advance := by
      intro measured
      rw [noteLarge]
      split <;> rfl
    cases hmeasured : g.measureGossipEntry key with
    | none => exact (ih _).cons rfl (by rw [packKeys, hmeasured]) (.inr (.inl hmeasured))
    | some measured =>
      obtain ⟨-, hused⟩ := g.noteLarge_rest key measured p
      by_cases halone : g.gossipBudgetBytes < ↑(envelopeBytes + measured.bytes)
      · refine (ih _).cons ?_ (by rw [packKeys, hmeasured]; exact if_pos halone)
          (.inr (.inr ⟨measured, hmeasured, halone⟩))
        exact congrArg (· + 1) (hnote measured)
      · by_cases hnow : g.gossipBudgetBytes < ↑((g.noteLarge key measured p).used + measured.bytes)
        · have heq : g.packKeys envelopeBytes (key :: keys) p = g.noteLarge key measured p := by
            rw [packKeys, hmeasured]
            exact (if_neg halone).trans (if_pos hnow)
          refine ⟨0, by rw [heq, hnote]; rfl, fun _ hfirst => ?_, by simp⟩
          rw [hused, hfirst] at hnow
          exact absurd hnow halone
        · refine (ih _).cons (congrArg (· + 1) (hnote measured))
            (by rw [packKeys, hmeasured]; exact (if_neg halone).trans (if_neg hnow)) (.inl ?_)
          simp

/-- A call passes one key or more from the cursor on, and the cursor goes on behind them. -/
lemma packGossipEntries_passed (henvelope : g.gossipEnvelopeBytes = .ok envelopeBytes)
    (hkeys : g.state.keys ≠ []) : ∃ packed, g.packGossipEntries = .ok packed ∧
      ∃ k, 0 < k ∧ packed.gossipCursor =
          (g.gossipCursor % g.state.keys.length + k) % g.state.keys.length ∧
        ∀ key ∈ g.sweep.take k, g.Passed envelopeBytes packed.keys key := by
  obtain ⟨k, hadvance, hpos, hpassed⟩ :
      g.PassesFrom envelopeBytes g.sweep { used := envelopeBytes } := g.passesFrom _ _
  have hne : g.sweep ≠ [] := fun h => hkeys (rotate_eq_nil_iff.1 h)
  refine ⟨_, by rw [packGossipEntries, if_neg hkeys, henvelope]; rfl, k, hpos hne rfl, ?_,
    fun key hkey => (hpassed key hkey).mono fun other hother => ?_⟩
  · simp only [hadvance, Nat.zero_add]
  · have hpacked : (g.packKeys envelopeBytes g.sweep { used := envelopeBytes }).packed ≠ [] := by
      rintro hnil
      rw [hnil] at hother
      cases hother
    simp only [PackedGossip.keys, if_neg hpacked, Option.getD_some]
    refine ((propertyOrder_perm _).map Prod.fst).mem_iff.2 ?_
    simpa [map_map] using hother

/-- A key at a distance from the cursor is packed before as many calls are over. -/
lemma calls_pack (henvelope : g.gossipEnvelopeBytes = .ok envelopeBytes) (n : ℕ) :
    ∀ cursor, ∃ rounds, calls n { g with gossipCursor := cursor } = .ok rounds ∧
      ∀ key, (∀ packed, g.Passed envelopeBytes packed key → key ∈ packed) →
        ∀ d < n, (g.state.keys.rotate cursor)[d]? = some key →
          ∃ packed ∈ rounds, key ∈ packed.keys := by
  induction n with
  | zero => exact fun _ => ⟨[], rfl, fun _ _ d hd => absurd hd (Nat.not_lt_zero d)⟩
  | succ n ih =>
    intro cursor
    by_cases hkeys : g.state.keys = []
    · have hcall : ({ g with gossipCursor := cursor } : Gossiper C).packGossipEntries =
          .ok ⟨none, cursor, {}, {}⟩ := if_pos hkeys
      obtain ⟨rounds, hrounds, -⟩ := ih cursor
      refine ⟨_, by rw [calls, hcall]; exact congrArg (Except.map _) hrounds,
        fun key _ d _ hd => ?_⟩
      rw [hkeys, rotate_nil] at hd
      cases hd
    · obtain ⟨packed, hcall, k, hpos, hcursor, hpassed⟩ :=
        ({ g with gossipCursor := cursor } : Gossiper C).packGossipEntries_passed henvelope hkeys
      obtain ⟨rounds, hrounds, hcovers⟩ := ih packed.gossipCursor
      have hcalls : calls (n + 1) { g with gossipCursor := cursor } = .ok (packed :: rounds) := by
        rw [calls, hcall]
        exact congrArg (Except.map (packed :: ·)) hrounds
      refine ⟨packed :: rounds, hcalls, fun key hfits d hd hkey => ?_⟩
      by_cases hk : d < k
      · refine ⟨packed, mem_cons_self, hfits _ (hpassed key ?_)⟩
        rw [sweep, rotate_mod]
        exact mem_iff_getElem?.2 ⟨d, (getElem?_take_of_lt hk).trans hkey⟩
      · have hlength : d < (g.state.keys.rotate cursor).length :=
          (List.getElem?_eq_some_iff.1 hkey).1
        have hnearer : (g.state.keys.rotate packed.gossipCursor)[d - k]? = some key := by
          have hshift : (g.state.keys.rotate packed.gossipCursor) =
              (g.state.keys.rotate cursor).rotate k := by
            rw [hcursor, rotate_mod, ← rotate_rotate, rotate_mod]
          rw [hshift, getElem?_rotate (by omega), Nat.sub_add_cancel (not_lt.1 hk),
            Nat.mod_eq_of_lt hlength, hkey]
        obtain ⟨other, hother, hmem⟩ := hcovers key hfits (d - k) (by omega) hnearer
        exact ⟨other, mem_cons_of_mem _ hother, hmem⟩

end Gossiper

end ActorTs.DistributedData
