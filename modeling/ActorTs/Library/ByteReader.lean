import ActorTs.Library.Outcome
import ActorTs.Library.Utf8

/-!
# Readers of bytes

A reader moves a cursor over the bytes that are left and may fail. `Reads r data a`
says that `r` reads `a` off any bytes that `data` is the front of, and leaves the
rest. The rules compose such statements along a reader in the order in which it
takes the bytes.
-/

/-- The offset of the next byte, and the bytes from it on. -/
structure Cursor where
  pos : ℕ
  rest : Bytes

abbrev Reader (ε : Type) := StateT Cursor (Except ε)

open List Nat

namespace Reader

variable {ε α β : Type}

/-- Stop with an error that may name the offset. -/
def failAt (error : ℕ → ε) : Reader ε α := fun c => .error (error c.pos)

/-- The next bytes, where there are so many. -/
def take (n : ℕ) (error : ℕ → ε) : Reader ε Bytes := fun c =>
  if c.rest.length < n then .error (error c.pos)
  else .ok (c.rest.take n, ⟨c.pos + n, c.rest.drop n⟩)

/-- Read one thing after another. -/
def many (r : Reader ε α) : ℕ → Reader ε (List α)
  | 0 => pure []
  | n + 1 => do
      let a ← r
      let as ← many r n
      return a :: as

def Reads (r : Reader ε α) (data : Bytes) (a : α) : Prop :=
  ∀ pos rest, r ⟨pos, data ++ rest⟩ = .ok (a, ⟨pos + data.length, rest⟩)

namespace Reads

variable {r : Reader ε α} {data data' : Bytes} {a : α} {b : β}

lemma pure (a : α) : Reads (Pure.pure a : Reader ε α) [] a := fun _ _ => rfl

lemma bind {f : α → Reader ε β} (hr : Reads r data a) (hf : Reads (f a) data' b) :
    Reads (r >>= f) (data ++ data') b := by
  intro pos rest
  have hrest := hf (pos + data.length) rest
  rw [Nat.add_assoc, ← List.length_append] at hrest
  rw [List.append_assoc]
  change ((r ⟨pos, data ++ (data' ++ rest)⟩) >>= fun p => f p.1 p.2) = _
  rw [hr]
  exact hrest

lemma map (f : α → β) (hr : Reads r data a) : Reads (f <$> r) data (f a) := by
  intro pos rest
  change ((r ⟨pos, data ++ rest⟩) >>= fun p => Except.ok (f p.1, p.2)) = _
  rw [hr]
  rfl

lemma seq (f : α → β) (hr : Reads r data a) :
    Reads (r >>= fun a => Pure.pure (f a)) data (f a) := by
  have h : Reads (r >>= fun a => Pure.pure (f a)) (data ++ []) (f a) := hr.bind (pure (f a))
  rwa [append_nil] at h

lemma lift {x : Except ε α} (h : x = .ok a) : Reads (liftM x : Reader ε α) [] a := by
  intro pos rest
  rw [h]
  rfl

lemma take (data : Bytes) (error : ℕ → ε) : Reads (Reader.take data.length error) data data := by
  intro pos rest
  simp [Reader.take]

lemma many_zero (r : Reader ε α) : Reads (many r 0) [] [] := pure []

lemma many_succ {n : ℕ} {as : List α} (hr : Reads r data a) (hrest : Reads (many r n) data' as) :
    Reads (many r (n + 1)) (data ++ data') (a :: as) :=
  hr.bind (hrest.seq (a :: ·))

end Reads

/-- A family of readers fails on what `data` is the front of, or takes off `data`, and
all of its members do the same. -/
def Skips {ι : Type*} (r : ι → Reader ε α) (data : Bytes) : Prop :=
  ∀ pos rest, (∃ e, ∀ i, r i ⟨pos, data ++ rest⟩ = .error e) ∨
    ∃ a, ∀ i, r i ⟨pos, data ++ rest⟩ = .ok (a, ⟨pos + data.length, rest⟩)

lemma bind_apply (r : Reader ε α) (f : α → Reader ε β) (c : Cursor) :
    (r >>= f) c = r c >>= fun p => f p.1 p.2 := rfl

namespace Skips

variable {ι : Type*} {r : ι → Reader ε α} {data data' : Bytes}

lemma of_reads {a : α} (h : ∀ i, Reads (r i) data a) : Skips r data :=
  fun pos rest => .inr ⟨a, fun i => h i pos rest⟩

lemma failAt (error : ℕ → ε) : Skips (fun _ : ι => (Reader.failAt error : Reader ε α)) data :=
  fun pos _ => .inl ⟨error pos, fun _ => rfl⟩

lemma lift (x : Except ε α) : Skips (fun _ : ι => (liftM x : Reader ε α)) [] := by
  intro pos rest
  cases x with
  | error e => exact .inl ⟨e, fun _ => rfl⟩
  | ok a => exact .inr ⟨a, fun _ => rfl⟩

lemma bind {f : ι → α → Reader ε β} (hr : Skips r data) (hf : ∀ a, Skips (f · a) data') :
    Skips (fun i => r i >>= f i) (data ++ data') := by
  intro pos rest
  rw [List.append_assoc, List.length_append, ← Nat.add_assoc]
  simp only [bind_apply]
  rcases hr pos (data' ++ rest) with ⟨e, he⟩ | ⟨a, ha⟩
  · exact .inl ⟨e, fun i => by rw [he]; rfl⟩
  · rcases hf a (pos + data.length) rest with ⟨e, he⟩ | ⟨b, hb⟩
    · exact .inl ⟨e, fun i => by rw [ha]; exact he i⟩
    · exact .inr ⟨b, fun i => by rw [ha]; exact hb i⟩

lemma seq (f : α → β) (hr : Skips r data) :
    Skips (fun i => r i >>= fun a => Pure.pure (f a)) data := by
  have h := hr.bind (f := fun _ a => Pure.pure (f a)) fun a => of_reads fun _ => Reads.pure (f a)
  rwa [append_nil] at h

lemma map (f : α → β) (hr : Skips r data) : Skips (fun i => f <$> r i) data := by
  exact hr.seq f

lemma many_zero : Skips (fun i => many (r i) 0) [] := of_reads fun i => Reads.many_zero (r i)

lemma many_succ {n : ℕ} (hr : Skips r data) (hrest : Skips (fun i => many (r i) n) data') :
    Skips (fun i => many (r i) (n + 1)) (data ++ data') :=
  hr.bind fun a => hrest.seq (a :: ·)

end Skips

/-- What is read exactly is read before a family of readers. -/
lemma Reads.bind_skips {ι : Type*} {r : Reader ε α} {f : ι → α → Reader ε β} {a : α}
    {data data' : Bytes} (hr : Reads r data a) (hf : Skips (f · a) data') :
    Skips (fun i => r >>= f i) (data ++ data') := by
  intro pos rest
  rw [List.append_assoc, List.length_append, ← Nat.add_assoc]
  simp only [bind_apply, hr pos (data' ++ rest)]
  exact hf (pos + data.length) rest

/-- A reader that succeeds has taken bytes off the front, and no fewer than `least`. -/
def Consumes (least : ℕ) (r : Reader ε α) : Prop :=
  ∀ ⦃c a c'⦄, r c = .ok (a, c') → ∃ used : Bytes,
    least ≤ used.length ∧ c.rest = used ++ c'.rest ∧ c'.pos = c.pos + used.length

namespace Consumes

variable {least least' : ℕ} {r : Reader ε α} {f : α → Reader ε β}

lemma mono (h : Consumes least r) (hle : least' ≤ least) : Consumes least' r := by
  intro c a c' hr
  obtain ⟨used, hused, hrest⟩ := h hr
  exact ⟨used, hle.trans hused, hrest⟩

lemma pure (a : α) : Consumes 0 (Pure.pure a : Reader ε α) := by
  intro c a' c' h
  cases h
  exact ⟨[], le_rfl, rfl, rfl⟩

lemma failAt (error : ℕ → ε) : Consumes least (Reader.failAt error : Reader ε α) :=
  fun _ _ _ h => by cases h

lemma lift (x : Except ε α) : Consumes 0 (liftM x : Reader ε α) := by
  cases x with
  | error e => exact fun _ _ _ h => by cases h
  | ok a => exact pure a

lemma take (n : ℕ) (error : ℕ → ε) : Consumes n (Reader.take n error) := by
  intro c data c' h
  unfold Reader.take at h
  split at h
  · cases h
  · cases h
    have hlength : (c.rest.take n).length = n := length_take_of_le (by omega)
    refine ⟨c.rest.take n, hlength.ge, (take_append_drop n c.rest).symm, ?_⟩
    rw [hlength]

lemma bind (hr : Consumes least r) (hf : ∀ a, Consumes least' (f a)) :
    Consumes (least + least') (r >>= f) := by
  intro c b c' h
  obtain ⟨⟨a, d⟩, ha, hb⟩ := Outcome.bind_eq_ok h
  obtain ⟨used, hused, hrest, hpos⟩ := hr ha
  obtain ⟨used', hused', hrest', hpos'⟩ := hf a hb
  refine ⟨used ++ used', ?_, ?_, ?_⟩
  · rw [length_append]
    exact Nat.add_le_add hused hused'
  · rw [hrest, hrest', append_assoc]
  · rw [hpos', hpos, List.length_append, Nat.add_assoc]

/-- What is read behind an item may be nothing. -/
lemma andThen (hr : Consumes least r) (hf : ∀ a, Consumes 0 (f a)) :
    Consumes least (r >>= f) := hr.bind hf

lemma map (f : α → β) (hr : Consumes least r) : Consumes least (f <$> r) := by
  exact hr.andThen fun a => pure (f a)

lemma many (hr : Consumes least r) (n : ℕ) : Consumes 0 (many r n) := by
  induction n with
  | zero => exact pure []
  | succ n ih => exact (hr.bind fun a => ih.bind fun as => pure (a :: as)).mono (zero_le _)

/-- Where there are more items than bytes, the loop fails as one does that has only one
item more than there are bytes. -/
lemma exists_many_eq_error (hr : Consumes 1 r) (c : Cursor) :
    ∃ e, ∀ n, c.rest.length < n → Reader.many r n c = .error e := by
  induction hlength : c.rest.length using Nat.strong_induction_on generalizing c with
  | _ length ih =>
    cases hc : r c with
    | error e =>
      refine ⟨e, fun n hn => ?_⟩
      obtain ⟨n, rfl⟩ : ∃ m, n = m + 1 := ⟨n - 1, by omega⟩
      rw [Reader.many, bind_apply, hc]
      rfl
    | ok p =>
      obtain ⟨used, hused, hrest, -⟩ := hr hc
      have hshorter : p.2.rest.length < length := by
        rw [← hlength, hrest, length_append]
        omega
      obtain ⟨e, he⟩ := ih _ hshorter p.2 rfl
      refine ⟨e, fun n hn => ?_⟩
      obtain ⟨n, rfl⟩ : ∃ m, n = m + 1 := ⟨n - 1, by omega⟩
      rw [Reader.many, bind_apply, hc]
      change (Reader.many r n >>= fun as => Pure.pure (p.1 :: as)) p.2 = _
      rw [bind_apply, he n (by omega)]
      rfl

end Consumes

end Reader
