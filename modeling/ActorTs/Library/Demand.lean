import ActorTs.Library.OrderedMap
import ActorTs.Library.Outcome

/-!
# Values computed on demand

Some keys have a computation, which may ask for the values of other keys on its way.
`valueWithin n` computes afresh, nested at most `n` deep; `HasValue` is what some depth
gives, and it is the meaning of a key. `field` is the machine: it remembers the values
it has computed, and it keeps the keys that are being computed, so that a computation
that comes back to itself is a failure and not a loop.

The machine gives a value exactly where there is one, whatever it remembers, and the nesting is
bounded by the number of keys.
-/

/-- A computation that asks for the values of keys. -/
inductive Demand (κ ε α β : Type) where
  | done (b : β)
  | fail (e : ε)
  | ask (k : κ) (next : α → Demand κ ε α β)

open List Option Nat

namespace Demand

variable {κ ε α β γ : Type}

def bind (p : Demand κ ε α β) (f : β → Demand κ ε α γ) : Demand κ ε α γ :=
  match p with
  | done b => f b
  | fail e => fail e
  | ask k next => ask k fun a => bind (next a) f

instance : Monad (Demand κ ε α) where
  pure := done
  bind := bind

@[simp] lemma ask_bind (k : κ) (next : α → Demand κ ε α β) (f : β → Demand κ ε α γ) :
    (ask k next >>= f) = ask k fun a => next a >>= f := rfl

section Fresh

/-- The result when the keys have the values that `look` gives them. -/
def evalWith (look : κ → Option α) : Demand κ ε α β → Option β
  | done b => some b
  | fail _ => none
  | ask k next => (look k).bind fun a => evalWith look (next a)

variable {look look' : κ → Option α}

@[simp] lemma evalWith_done (b : β) : evalWith look (done b : Demand κ ε α β) = some b := rfl

@[simp] lemma evalWith_ask (k : κ) (next : α → Demand κ ε α β) :
    evalWith look (ask k next) = (look k).bind fun a => evalWith look (next a) := rfl

@[simp] lemma evalWith_bind (p : Demand κ ε α β) (f : β → Demand κ ε α γ) :
    evalWith look (p >>= f) = (evalWith look p).bind fun b => evalWith look (f b) := by
  induction p with
  | done b => rfl
  | fail e => rfl
  | ask k next ih =>
    rw [ask_bind, evalWith_ask, evalWith_ask, bind_assoc]
    congr 1
    funext a
    exact ih a

variable {p : Demand κ ε α β} {b : β}

lemma evalWith_mono (h : ∀ k a, look k = some a → look' k = some a)
    (hp : evalWith look p = some b) : evalWith look' p = some b := by
  induction p with
  | done c => exact hp
  | fail e => cases hp
  | ask k next ih =>
    rw [evalWith_ask, bind_eq_some_iff] at hp ⊢
    obtain ⟨a, hk, hnext⟩ := hp
    exact ⟨a, h k a hk, ih a hnext⟩

variable (body : κ → Demand κ ε α α)

/-- The value of a key, computed with at most so many computations inside each other. -/
def valueWithin : ℕ → κ → Option α
  | 0, _ => none
  | n + 1, k => evalWith (valueWithin n) (body k)

variable {k : κ}

lemma valueWithin_succ {n : ℕ} {a : α} (h : valueWithin body n k = some a) :
    valueWithin body (n + 1) k = some a := by
  induction n generalizing k a with
  | zero => cases h
  | succ n ih => exact evalWith_mono (fun _ _ => ih) h

lemma valueWithin_mono {n m : ℕ} (hnm : n ≤ m) {a : α} (h : valueWithin body n k = some a) :
    valueWithin body m k = some a := by
  induction hnm with
  | refl => exact h
  | step _ ih => exact valueWithin_succ body ih

def HasValue (k : κ) (a : α) : Prop := ∃ n, valueWithin body n k = some a

def HasResult (p : Demand κ ε α β) (b : β) : Prop :=
  ∃ n, evalWith (valueWithin body n) p = some b

variable {body}

lemma HasValue.unique {a a' : α} (h : HasValue body k a) (h' : HasValue body k a') : a = a' := by
  obtain ⟨n, hn⟩ := h
  obtain ⟨m, hm⟩ := h'
  have hn' := valueWithin_mono body (le_max_left n m) hn
  exact some.inj (hn'.symm.trans (valueWithin_mono body (le_max_right n m) hm))

@[simp] lemma hasResult_done {b b' : β} :
    HasResult body (done b : Demand κ ε α β) b' ↔ b = b' :=
  ⟨fun ⟨_, h⟩ => some.inj h, fun h => ⟨0, congrArg some h⟩⟩

lemma hasResult_ask {next : α → Demand κ ε α β} :
    HasResult body (ask k next) b ↔ ∃ a, HasValue body k a ∧ HasResult body (next a) b := by
  constructor
  · rintro ⟨n, h⟩
    rw [evalWith_ask, bind_eq_some_iff] at h
    obtain ⟨a, hk, hnext⟩ := h
    exact ⟨a, ⟨n, hk⟩, n, hnext⟩
  · rintro ⟨a, ⟨n, hk⟩, m, hnext⟩
    refine ⟨max n m, ?_⟩
    rw [evalWith_ask, valueWithin_mono body (le_max_left n m) hk]
    exact evalWith_mono (fun k a => valueWithin_mono body (le_max_right n m)) hnext

lemma hasValue_iff {a : α} : HasValue body k a ↔ HasResult body (body k) a := by
  constructor
  · rintro ⟨n, h⟩
    cases n with
    | zero => cases h
    | succ n => exact ⟨n, h⟩
  · rintro ⟨n, h⟩
    exact ⟨n + 1, h⟩

lemma exists_least {n : ℕ} {a : α} (h : valueWithin body n k = some a) :
    ∃ m < n, evalWith (valueWithin body m) (body k) = some a ∧ valueWithin body m k = none := by
  induction n with
  | zero => cases h
  | succ n ih =>
    cases hn : valueWithin body n k with
    | none => exact ⟨n, lt_succ_self n, h, hn⟩
    | some a' =>
      obtain rfl : a' = a := some.inj ((valueWithin_succ body hn).symm.trans h)
      obtain ⟨m, hm, heval, hnone⟩ := ih hn
      exact ⟨m, hm.trans (lt_succ_self n), heval, hnone⟩

end Fresh

/-- Why the machine stopped without a value. -/
inductive Fault (ε : Type) where
  | exhausted
  | thrown (e : ε)

/-- Run a computation, with `field` for the keys it asks for. -/
def serve (field : κ → List (κ × α) → Except (Fault ε) (α × List (κ × α))) :
    Demand κ ε α β → List (κ × α) → Except (Fault ε) (β × List (κ × α))
  | done b, known => .ok (b, known)
  | fail e, _ => .error (.thrown e)
  | ask k next, known => do
      let (a, known) ← field k known
      serve field (next a) known

lemma serve_complete_of {field : κ → List (κ × α) → Except (Fault ε) (α × List (κ × α))}
    {look : κ → Option α} {Known : List (κ × α) → Prop}
    (hfield : ∀ k a known, Known known → look k = some a →
      ∃ known', field k known = .ok (a, known') ∧ Known known')
    {p : Demand κ ε α β} {known : List (κ × α)} {b : β} (hknown : Known known)
    (h : evalWith look p = some b) :
    ∃ known', serve field p known = .ok (b, known') ∧ Known known' := by
  induction p generalizing known with
  | done c =>
    cases h
    exact ⟨known, rfl, hknown⟩
  | fail e => cases h
  | ask k next ih =>
    rw [evalWith_ask, bind_eq_some_iff] at h
    obtain ⟨a, hk, hnext⟩ := h
    obtain ⟨known₁, hfieldk, hknown₁⟩ := hfield k a known hknown hk
    obtain ⟨known', hserve, hknown'⟩ := ih a hknown₁ hnext
    refine ⟨known', ?_, hknown'⟩
    rw [serve, hfieldk]
    exact hserve

lemma serve_sound_of {body : κ → Demand κ ε α α}
    {field : κ → List (κ × α) → Except (Fault ε) (α × List (κ × α))}
    {Known : List (κ × α) → Prop}
    (hfield : ∀ k known a known', Known known → field k known = .ok (a, known') →
      HasValue body k a ∧ Known known')
    {p : Demand κ ε α β} {known known' : List (κ × α)} {b : β} (hknown : Known known)
    (h : serve field p known = .ok (b, known')) : HasResult body p b ∧ Known known' := by
  induction p generalizing known with
  | done c =>
    cases h
    exact ⟨hasResult_done.2 rfl, hknown⟩
  | fail e => cases h
  | ask k next ih =>
    obtain ⟨⟨a, known₁⟩, hk, hnext⟩ := Outcome.bind_eq_ok h
    obtain ⟨ha, hknown₁⟩ := hfield k known a known₁ hknown hk
    obtain ⟨hb, hknown'⟩ := ih a hknown₁ hnext
    exact ⟨hasResult_ask.2 ⟨a, ha, hb⟩, hknown'⟩

/-- The computation asks only for keys of a list, and what it gives is good when every
answer that it gets is. -/
def Meets (keys : List κ) (A : α → Prop) (P : β → Prop) : Demand κ ε α β → Prop
  | done b => P b
  | fail _ => True
  | ask k next => k ∈ keys ∧ ∀ a, A a → Meets keys A P (next a)

section Meets

variable {keys : List κ} {A : α → Prop} {P : β → Prop} {Q : γ → Prop} {p : Demand κ ε α β}

lemma meets_fail (e : ε) : Meets keys A P (fail e : Demand κ ε α β) := trivial

lemma Meets.bind {f : β → Demand κ ε α γ} (hp : Meets keys A P p)
    (hf : ∀ b, P b → Meets keys A Q (f b)) : Meets keys A Q (p >>= f) := by
  induction p with
  | done b => exact hf b hp
  | fail e => trivial
  | ask k next ih => exact ⟨hp.1, fun a ha => ih a (hp.2 a ha)⟩

lemma Meets.evalWith {look : κ → Option α} (hlook : ∀ k a, look k = some a → A a)
    (hp : Meets keys A P p) {b : β} (h : evalWith look p = some b) : P b := by
  induction p with
  | done c =>
    cases h
    exact hp
  | fail e => cases h
  | ask k next ih =>
    rw [evalWith_ask, bind_eq_some_iff] at h
    obtain ⟨a, hk, hnext⟩ := h
    exact ih a (hp.2 a (hlook k a hk)) hnext

section Values

variable {body : κ → Demand κ ε α α} (hbody : ∀ k, Meets keys A A (body k))
include hbody

lemma meets_valueWithin {n : ℕ} {k : κ} {a : α} (h : valueWithin body n k = some a) : A a := by
  induction n generalizing k a with
  | zero => cases h
  | succ n ih => exact (hbody k).evalWith (fun _ _ => ih) h

lemma HasResult.meets {p : Demand κ ε α β} (hp : Meets keys A P p) {b : β}
    (h : HasResult body p b) : P b := by
  obtain ⟨n, hn⟩ := h
  exact hp.evalWith (fun _ _ => meets_valueWithin hbody) hn

end Values

end Meets

/-- The keys that a computation may ask for, whatever the values are. -/
def AsksIn (keys : List κ) : Demand κ ε α β → Prop := Meets keys (fun _ => True) fun _ => True

lemma serve_ne_exhausted_of {keys : List κ}
    {field : κ → List (κ × α) → Except (Fault ε) (α × List (κ × α))}
    (hfield : ∀ k ∈ keys, ∀ known, field k known ≠ .error .exhausted)
    {p : Demand κ ε α β} (hp : AsksIn keys p) (known : List (κ × α)) :
    serve field p known ≠ .error .exhausted := by
  induction p generalizing known with
  | done b => exact fun h => by cases h
  | fail e => exact fun h => by cases h
  | ask k next ih =>
    rw [serve]
    cases hk : field k known with
    | error fault =>
      have hne := hfield k hp.1 known
      rw [hk] at hne
      exact fun h => hne (congrArg _ (Except.error.inj h))
    | ok r => exact ih r.1 (hp.2 r.1 trivial) r.2

/-- A run that ends with some bound on the nesting ends the same way with a higher one. -/
lemma serve_mono_of {field field' : κ → List (κ × α) → Except (Fault ε) (α × List (κ × α))}
    (hfield : ∀ k known, field k known ≠ .error .exhausted → field' k known = field k known)
    {p : Demand κ ε α β} {known : List (κ × α)} (h : serve field p known ≠ .error .exhausted) :
    serve field' p known = serve field p known := by
  induction p generalizing known with
  | done b => rfl
  | fail e => rfl
  | ask k next ih =>
    rw [serve] at h ⊢
    rw [serve]
    have hk : field k known ≠ .error .exhausted := fun hk => h (by rw [hk]; rfl)
    rw [hfield k known hk]
    cases hresult : field k known with
    | error fault => rfl
    | ok r =>
      rw [hresult] at h
      exact ih r.1 h

section Related

variable {κ' ε' α' β' γ' : Type}

/-- Both have a result and the results are related, or neither has one. -/
def Related (look : κ → Option α) (look' : κ' → Option α') (R : β → β' → Prop)
    (p : Demand κ ε α β) (p' : Demand κ' ε' α' β') : Prop :=
  Option.Rel R (evalWith look p) (evalWith look' p')

variable {look : κ → Option α} {look' : κ' → Option α'} {R : β → β' → Prop} {S : γ → γ' → Prop}
  {T : α → α' → Prop}

lemma related_done {b : β} {b' : β'} (h : R b b') :
    Related look look' R (done b : Demand κ ε α β) (done b' : Demand κ' ε' α' β') := .some h

lemma related_fail (e : ε) (e' : ε') :
    Related look look' R (fail e : Demand κ ε α β) (fail e' : Demand κ' ε' α' β') := .none

lemma rel_bind {x : Option α} {x' : Option α'} {f : α → Option γ} {f' : α' → Option γ'}
    (h : Option.Rel T x x') (hf : ∀ a a', T a a' → Option.Rel S (f a) (f' a')) :
    Option.Rel S (x.bind f) (x'.bind f') := by
  cases h with
  | none => exact .none
  | some h => exact hf _ _ h

lemma Related.bind {p : Demand κ ε α β} {p' : Demand κ' ε' α' β'} {f : β → Demand κ ε α γ}
    {f' : β' → Demand κ' ε' α' γ'} (h : Related look look' R p p')
    (hf : ∀ b b', R b b' → Related look look' S (f b) (f' b')) :
    Related look look' S (p >>= f) (p' >>= f') := by
  rw [Related, evalWith_bind, evalWith_bind]
  exact rel_bind h hf

lemma related_ask {k : κ} {k' : κ'} {next : α → Demand κ ε α β} {next' : α' → Demand κ' ε' α' β'}
    (h : Option.Rel T (look k) (look' k'))
    (hnext : ∀ a a', T a a' → Related look look' R (next a) (next' a')) :
    Related look look' R (ask k next) (ask k' next') := by
  exact rel_bind h hnext

end Related

section Machine

variable [DecidableEq κ] (body : κ → Demand κ ε α α) (cycle : List κ → ε)

/-- One visit of a key: its value is known, or it comes back to itself, or it is computed
and remembered. The keys that are being computed stand in `opened`, the outermost first. -/
def visit (compute : List (κ × α) → Except (Fault ε) (α × List (κ × α))) (opened : List κ)
    (k : κ) (known : List (κ × α)) : Except (Fault ε) (α × List (κ × α)) :=
  match OrderedMap.lookup k known with
  | some a => .ok (a, known)
  | none =>
    if k ∈ opened then .error (.thrown (cycle (opened.drop (opened.idxOf k) ++ [k])))
    else do
      let (a, known) ← compute known
      return (a, OrderedMap.bind k a known)

/-- The value of a key, with at most so many computations inside each other. -/
def field : ℕ → List κ → κ → List (κ × α) → Except (Fault ε) (α × List (κ × α))
  | 0, opened, k => visit cycle (fun _ => .error .exhausted) opened k
  | fuel + 1, opened, k => visit cycle (serve (field fuel (opened ++ [k])) (body k)) opened k

/-- Everything that is remembered is the value of its key. -/
def Known (known : List (κ × α)) : Prop :=
  ∀ k a, OrderedMap.lookup k known = some a → HasValue body k a

lemma known_nil : Known body ([] : List (κ × α)) := fun _ _ h => by cases h

variable {body cycle}

lemma Known.bind {known : List (κ × α)} (h : Known body known) {k : κ} {a : α}
    (ha : HasValue body k a) : Known body (OrderedMap.bind k a known) := by
  intro k' a' hk'
  rw [OrderedMap.lookup_bind] at hk'
  split_ifs at hk' with hkk'
  · subst hkk'
    cases hk'
    exact ha
  · exact h k' a' hk'

section Visit

variable {compute compute' : List (κ × α) → Except (Fault ε) (α × List (κ × α))}
  {opened : List κ} {k : κ} {known known' : List (κ × α)} {a : α}

lemma visit_known (h : OrderedMap.lookup k known = some a) :
    visit cycle compute opened k known = .ok (a, known) := by
  rw [visit, h]

lemma visit_cycle (h : OrderedMap.lookup k known = none) (hopen : k ∈ opened) :
    visit cycle compute opened k known =
      .error (.thrown (cycle (opened.drop (opened.idxOf k) ++ [k]))) := by
  rw [visit, h]
  exact if_pos hopen

lemma visit_compute (h : OrderedMap.lookup k known = none) (hopen : k ∉ opened) :
    visit cycle compute opened k known =
      compute known >>= fun r => .ok (r.1, OrderedMap.bind k r.1 r.2) := by
  rw [visit, h]
  exact if_neg hopen

lemma visit_sound (hknown : Known body known)
    (hcompute : ∀ a known', compute known = .ok (a, known') → HasValue body k a ∧ Known body known')
    (h : visit cycle compute opened k known = .ok (a, known')) :
    HasValue body k a ∧ Known body known' := by
  cases hk : OrderedMap.lookup k known with
  | some a' =>
    rw [visit_known hk] at h
    cases h
    exact ⟨hknown k _ hk, hknown⟩
  | none =>
    by_cases hopen : k ∈ opened
    · rw [visit_cycle hk hopen] at h
      cases h
    · rw [visit_compute hk hopen] at h
      obtain ⟨⟨a', known₁⟩, hrun, hret⟩ := Outcome.bind_eq_ok h
      cases hret
      obtain ⟨ha, hknown₁⟩ := hcompute a' known₁ hrun
      exact ⟨ha, hknown₁.bind ha⟩

lemma visit_ne_exhausted (h : k ∉ opened → compute known ≠ .error .exhausted) :
    visit cycle compute opened k known ≠ .error .exhausted := by
  cases hk : OrderedMap.lookup k known with
  | some a =>
    rw [visit_known hk]
    exact fun h => by cases h
  | none =>
    by_cases hopen : k ∈ opened
    · rw [visit_cycle hk hopen]
      exact fun h => by cases h
    · rw [visit_compute hk hopen]
      cases hrun : compute known with
      | error fault => exact fun hbind => h hopen (hrun.trans (congrArg _ (Except.error.inj hbind)))
      | ok r => exact fun hbind => by cases hbind

lemma visit_mono (hcompute : compute known ≠ .error .exhausted → compute' known = compute known)
    (h : visit cycle compute opened k known ≠ .error .exhausted) :
    visit cycle compute' opened k known = visit cycle compute opened k known := by
  cases hk : OrderedMap.lookup k known with
  | some a => rw [visit_known hk, visit_known hk]
  | none =>
    by_cases hopen : k ∈ opened
    · rw [visit_cycle hk hopen, visit_cycle hk hopen]
    · rw [visit_compute hk hopen] at h ⊢
      rw [visit_compute hk hopen, hcompute fun hrun => h (by rw [hrun]; rfl)]

end Visit

variable {fuel : ℕ} {opened : List κ} {known : List (κ × α)}

lemma field_sound {k : κ} {known' : List (κ × α)} {a : α} (hknown : Known body known)
    (h : field body cycle fuel opened k known = .ok (a, known')) :
    HasValue body k a ∧ Known body known' := by
  induction fuel generalizing opened k known known' a with
  | zero => exact visit_sound hknown (fun _ _ h => by cases h) h
  | succ fuel ih =>
    refine visit_sound hknown (fun a' known₁ hrun => ?_) h
    have hserve := serve_sound_of (fun k known a known' hknown hf => ih hknown hf) hknown hrun
    exact ⟨hasValue_iff.2 hserve.1, hserve.2⟩

variable {p : Demand κ ε α β} {keys : List κ} {b : β}

lemma serve_sound {known' : List (κ × α)} (hknown : Known body known)
    (h : serve (field body cycle fuel opened) p known = .ok (b, known')) :
    HasResult body p b ∧ Known body known' :=
  serve_sound_of (fun _ _ _ _ hknown hf => field_sound hknown hf) hknown h

/-- A key whose value is nested `n` deep is served when the open keys have none that is nested so
little. -/
lemma field_of_valueWithin {n : ℕ} {k : κ} {a : α} (hknown : Known body known)
    (hopened : ∀ k ∈ opened, valueWithin body n k = none) (h : valueWithin body n k = some a)
    (hfuel : n ≤ fuel) :
    ∃ known', field body cycle fuel opened k known = .ok (a, known') ∧ Known body known' := by
  induction fuel generalizing n opened k known a with
  | zero =>
    rw [le_zero.1 hfuel] at h
    cases h
  | succ fuel ih =>
    cases hk : OrderedMap.lookup k known with
    | some a' =>
      have ha : a' = a := (hknown k a' hk).unique ⟨n, h⟩
      exact ⟨known, by rw [field, visit_known hk, ha], hknown⟩
    | none =>
      have hnot : k ∉ opened := fun hmem => by
        rw [hopened k hmem] at h
        cases h
      obtain ⟨m, hm, heval, hnone⟩ := exists_least h
      have hopened' : ∀ k' ∈ opened ++ [k], valueWithin body m k' = none := by
        intro k' hk'
        rcases mem_append.1 hk' with hk' | hk'
        · cases hv : valueWithin body m k' with
          | none => rfl
          | some b => exact absurd (valueWithin_mono body hm.le hv) (by simp [hopened k' hk'])
        · rw [mem_singleton.1 hk']
          exact hnone
      have hfield : ∀ k' b known, Known body known → valueWithin body m k' = some b →
          ∃ known', field body cycle fuel (opened ++ [k]) k' known = .ok (b, known') ∧
            Known body known' :=
        fun k' b known hknown hb => ih hknown hopened' hb (by omega)
      obtain ⟨known', hserve, hknown'⟩ := serve_complete_of hfield hknown heval
      have ha := hasValue_iff.2 (⟨m, heval⟩ : HasResult body (body k) a)
      refine ⟨OrderedMap.bind k a known', ?_, hknown'.bind ha⟩
      rw [field, visit_compute hk hnot, hserve]
      rfl

/-- The open keys are distinct, so the nesting ends when all of them are open. -/
lemma field_ne_exhausted (hbody : ∀ k ∈ keys, AsksIn keys (body k)) (hopened : opened.Nodup)
    (hsub : opened ⊆ keys) (hfuel : keys.length ≤ fuel + opened.length) {k : κ} (hk : k ∈ keys)
    (known : List (κ × α)) : field body cycle fuel opened k known ≠ .error .exhausted := by
  induction fuel generalizing opened k known with
  | zero =>
    refine visit_ne_exhausted fun hnot => ?_
    have hlen := ((nodup_cons.2 ⟨hnot, hopened⟩).subperm (cons_subset.2 ⟨hk, hsub⟩)).length_le
    rw [length_cons] at hlen
    omega
  | succ fuel ih =>
    refine visit_ne_exhausted fun hnot => ?_
    have hopened' : (opened ++ [k]).Nodup := by
      rw [← concat_eq_append, nodup_concat]
      exact ⟨hnot, hopened⟩
    have hsub' : opened ++ [k] ⊆ keys :=
      append_subset.2 ⟨hsub, cons_subset.2 ⟨hk, nil_subset _⟩⟩
    refine serve_ne_exhausted_of (fun k' hk' known' => ih hopened' hsub' ?_ hk' known')
      (hbody k hk) known
    rw [length_append, length_singleton]
    omega

lemma field_succ {k : κ} (h : field body cycle fuel opened k known ≠ .error .exhausted) :
    field body cycle (fuel + 1) opened k known = field body cycle fuel opened k known := by
  induction fuel generalizing opened k known with
  | zero => exact visit_mono (fun h => absurd rfl h) h
  | succ fuel ih => exact visit_mono (serve_mono_of fun _ _ => ih) h

lemma serve_mono {fuel' : ℕ} (hfuel : fuel ≤ fuel')
    (h : serve (field body cycle fuel opened) p known ≠ .error .exhausted) :
    serve (field body cycle fuel' opened) p known = serve (field body cycle fuel opened) p known := by
  induction hfuel with
  | refl => rfl
  | step _ ih => rw [← ih, serve_mono_of (fun _ _ => field_succ) (ih ▸ h)]

lemma serve_ne_exhausted (hbody : ∀ k ∈ keys, AsksIn keys (body k)) (hfuel : keys.length ≤ fuel)
    (hp : AsksIn keys p) (known : List (κ × α)) :
    serve (field body cycle fuel []) p known ≠ .error .exhausted :=
  serve_ne_exhausted_of (fun _ hk _ => field_ne_exhausted hbody nodup_nil
    (nil_subset _) hfuel hk _) hp known

/-- A run whose nesting is bounded by the number of keys gives what there is. -/
lemma serve_of_hasResult (hbody : ∀ k ∈ keys, AsksIn keys (body k)) (hfuel : keys.length ≤ fuel)
    (hp : AsksIn keys p) (hknown : Known body known) (h : HasResult body p b) :
    ∃ known', serve (field body cycle fuel []) p known = .ok (b, known') ∧ Known body known' := by
  obtain ⟨n, hn⟩ := h
  have hfield : ∀ k a known, Known body known → valueWithin body n k = some a →
      ∃ known', field body cycle (max fuel n) [] k known = .ok (a, known') ∧ Known body known' :=
    fun k a known hknown hk => field_of_valueWithin hknown (fun _ h => absurd h not_mem_nil) hk
      (le_max_right fuel n)
  obtain ⟨known', hserve, hknown'⟩ := serve_complete_of hfield hknown hn
  have hne : serve (field body cycle fuel []) p known ≠ .error .exhausted :=
    serve_ne_exhausted hbody hfuel hp known
  rw [serve_mono (le_max_left fuel n) hne] at hserve
  exact ⟨known', hserve, hknown'⟩

end Machine

end Demand
