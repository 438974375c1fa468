/-!
# Computations that may be cut short

A computation over a store, together with the stores that its writes leave one after the
other. Whoever finds the store when the computation was cut short finds one of them, or the
one it started from.
-/

/-- What a computation leaves: the store after each write, the store at its end and what it
returned. -/
structure Interruptible.Leaves (σ ε α : Type) where
  written : List σ
  final : σ
  outcome : Except ε α

/-- A computation over a store. -/
def Interruptible (σ ε α : Type) : Type := σ → Interruptible.Leaves σ ε α

namespace Interruptible

variable {σ ε α β : Type}

def get : Interruptible σ ε σ := fun s => ⟨[], s, .ok s⟩

/-- A computation that does not touch the store. -/
def lift (x : Except ε α) : Interruptible σ ε α := fun s => ⟨[], s, x⟩

/-- One write, which may be refused. -/
def write (f : σ → Except ε σ) : Interruptible σ ε Unit := fun s =>
  match f s with
  | .ok t => ⟨[t], t, .ok ()⟩
  | .error e => ⟨[], s, .error e⟩

def bind (m : Interruptible σ ε α) (f : α → Interruptible σ ε β) : Interruptible σ ε β := fun s =>
  match m s with
  | ⟨written, final, .ok a⟩ =>
    let later := f a final
    ⟨written ++ later.written, later.final, later.outcome⟩
  | ⟨written, final, .error e⟩ => ⟨written, final, .error e⟩

instance : Monad (Interruptible σ ε) where
  pure a := lift (.ok a)
  bind := bind

/-- Started on `s`, the computation leaves `inv` after every write, throws nothing but faults
and establishes `post` when it returns. -/
structure Meets (m : Interruptible σ ε α) (s : σ) (inv : σ → Prop) (fault : ε → Prop)
    (post : α → σ → Prop) : Prop where
  written : ∀ t ∈ (m s).written, inv t
  fault : ∀ e, (m s).outcome = .error e → fault e
  post : ∀ a, (m s).outcome = .ok a → post a (m s).final

namespace Meets

variable {m : Interruptible σ ε α} {f : α → Interruptible σ ε β} {s : σ} {inv : σ → Prop}
  {faulty : ε → Prop} {mid after : α → σ → Prop} {later : β → σ → Prop} {g : σ → Except ε σ}
  {x : Except ε α}

theorem lift (hfault : ∀ e, x = .error e → faulty e) (hpost : ∀ a, x = .ok a → after a s) :
    (Interruptible.lift x).Meets s inv faulty after :=
  ⟨fun _ ht => (nomatch ht), hfault, hpost⟩

theorem pure {a : α} (h : after a s) :
    (Pure.pure a : Interruptible σ ε α).Meets s inv faulty after :=
  lift (fun _ he => nomatch he) fun b hb => by
    cases hb
    exact h

theorem write {after : Unit → σ → Prop} (hfault : ∀ e, g s = .error e → faulty e)
    (hok : ∀ t, g s = .ok t → inv t ∧ after () t) :
    (Interruptible.write g).Meets s inv faulty after := by
  cases hg : g s with
  | error e =>
    have hrun : Interruptible.write g s = ⟨[], s, .error e⟩ := by rw [Interruptible.write, hg]
    refine ⟨?_, ?_, ?_⟩ <;> rw [hrun]
    · exact fun _ ht => nomatch ht
    · intro e' he'
      cases he'
      exact hfault e hg
    · exact fun _ ha => nomatch ha
  | ok t =>
    have hrun : Interruptible.write g s = ⟨[t], t, .ok ()⟩ := by rw [Interruptible.write, hg]
    refine ⟨?_, ?_, ?_⟩ <;> rw [hrun]
    · intro t' ht'
      rw [List.mem_singleton.1 ht']
      exact (hok t hg).1
    · exact fun _ he => nomatch he
    · exact fun _ _ => (hok t hg).2

theorem bind (hm : m.Meets s inv faulty mid)
    (hf : ∀ a t, mid a t → (f a).Meets t inv faulty later) :
    (m >>= f).Meets s inv faulty later := by
  obtain ⟨hwritten, hfault, hpost⟩ := hm
  have hrun : (m >>= f) s = Interruptible.bind m f s := rfl
  rcases hms : m s with ⟨written, final, outcome⟩
  rw [hms] at hwritten hfault hpost
  cases outcome with
  | error e =>
    have hall : Interruptible.bind m f s = ⟨written, final, .error e⟩ := by
      rw [Interruptible.bind, hms]
    refine ⟨?_, ?_, ?_⟩ <;> rw [hrun, hall]
    · exact hwritten
    · intro e' he'
      cases he'
      exact hfault e rfl
    · exact fun _ hb => nomatch hb
  | ok a =>
    have hall : Interruptible.bind m f s =
        ⟨written ++ (f a final).written, (f a final).final, (f a final).outcome⟩ := by
      rw [Interruptible.bind, hms]
    have hlater := hf a final (hpost a rfl)
    refine ⟨?_, ?_, ?_⟩ <;> rw [hrun, hall]
    · intro t ht
      exact (List.mem_append.1 ht).elim (hwritten t) (hlater.written t)
    · exact hlater.fault
    · exact hlater.post

theorem bind_get {f : σ → Interruptible σ ε β} (h : (f s).Meets s inv faulty later) :
    (Interruptible.get >>= f).Meets s inv faulty later := by
  have hget : (Interruptible.get : Interruptible σ ε σ).Meets s inv faulty
      fun a t => a = s ∧ t = s := by
    refine ⟨fun _ ht => (nomatch ht), fun _ he => (nomatch he), fun a ha => ?_⟩
    cases ha
    exact ⟨rfl, rfl⟩
  refine hget.bind ?_
  rintro _ _ ⟨rfl, rfl⟩
  exact h

theorem bind_lift (hfault : ∀ e, x = .error e → faulty e)
    (hf : ∀ a, x = .ok a → (f a).Meets s inv faulty later) :
    (Interruptible.lift x >>= f).Meets s inv faulty later := by
  have hx : (Interruptible.lift x).Meets s inv faulty fun a t => x = .ok a ∧ t = s :=
    lift hfault fun a ha => ⟨ha, rfl⟩
  refine hx.bind ?_
  rintro a _ ⟨ha, rfl⟩
  exact hf a ha

theorem bind_write {f : Unit → Interruptible σ ε β} (hfault : ∀ e, g s = .error e → faulty e)
    (hf : ∀ t, g s = .ok t → inv t ∧ (f ()).Meets t inv faulty later) :
    (Interruptible.write g >>= f).Meets s inv faulty later := by
  have hg : (Interruptible.write g).Meets s inv faulty fun _ t => g s = .ok t :=
    write hfault fun t ht => ⟨(hf t ht).1, ht⟩
  exact hg.bind fun _ t ht => (hf t ht).2

theorem mono {inv' : σ → Prop} {faulty' : ε → Prop} (h : m.Meets s inv faulty mid)
    (hinv : ∀ t, inv t → inv' t) (hfault : ∀ e, faulty e → faulty' e)
    (hpost : ∀ a t, mid a t → after a t) : m.Meets s inv' faulty' after :=
  ⟨fun t ht => hinv t (h.written t ht), fun e he => hfault e (h.fault e he),
    fun a ha => hpost a _ (h.post a ha)⟩

end Meets

end Interruptible
