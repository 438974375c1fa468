import ActorTs.Library.Machine
import Mathlib

/-!
# The token bucket of a throttle

A bucket earns tokens as time passes, and adds them when it is next asked. Over rational numbers its
tokens stay between none and the capacity, what is consumed in an interval is bounded by the
capacity and the rate, and a caller that waits as long as it is told is served, where the bucket can
hold one token.
-/

open List

namespace ActorTs.Actor

open Machine

structure TokenBucketOptions where
  qps : ℚ
  burst : Option ℚ

structure TokenBucket where
  qps : ℚ
  capacity : ℚ
  tokens : ℚ
  lastRefillAt : ℚ

namespace TokenBucket

/-- The constructor, which throws on an option that is not positive. -/
def ofOptions (options : TokenBucketOptions) (now : ℚ) : Except (String × ℚ) TokenBucket :=
  if options.qps ≤ 0 then
    .error ("TokenBucket: qps must be > 0, got ", options.qps)
  else
    match options.burst with
    | some burst =>
      if burst ≤ 0 then .error ("TokenBucket: burst must be > 0, got ", burst)
      else .ok ⟨options.qps, burst, burst, now⟩
    | none => .ok ⟨options.qps, options.qps, options.qps, now⟩

/-- Tokens earned since the last call, capped at the capacity. -/
def refill (b : TokenBucket) (now : ℚ) : TokenBucket :=
  if now - b.lastRefillAt ≤ 0 then b
  else
    { b with
      tokens := min b.capacity (b.tokens + (now - b.lastRefillAt) / 1000 * b.qps)
      lastRefillAt := now }

def tryConsume (b : TokenBucket) (now n : ℚ) : Bool × TokenBucket :=
  if n ≤ 0 then (true, b)
  else if (b.refill now).tokens < n then (false, b.refill now)
  else (true, { b.refill now with tokens := (b.refill now).tokens - n })

def timeUntilNext (b : TokenBucket) (now n : ℚ) : ℤ × TokenBucket :=
  if n ≤ (b.refill now).tokens then (0, b.refill now)
  else (⌈(n - (b.refill now).tokens) / b.qps * 1000⌉, b.refill now)

def currentTokens (b : TokenBucket) (now : ℚ) : ℚ × TokenBucket :=
  ((b.refill now).tokens, b.refill now)

def resetToFull (b : TokenBucket) (now : ℚ) : TokenBucket :=
  { b with tokens := b.capacity, lastRefillAt := now }

/-! ## Calls -/

inductive Method where
  | tryConsume (n : ℚ)
  | timeUntilNext (n : ℚ)
  | currentTokens
  | resetToFull
  deriving DecidableEq

/-- A call, and what the clock shows at it. -/
structure Call where
  now : ℚ
  method : Method

def call (b : TokenBucket) (c : Call) : TokenBucket :=
  match c.method with
  | .tryConsume n => (b.tryConsume c.now n).2
  | .timeUntilNext n => (b.timeUntilNext c.now n).2
  | .currentTokens => (b.currentTokens c.now).2
  | .resetToFull => b.resetToFull c.now

/-- The tokens that a call consumes. -/
def consumed (b : TokenBucket) (c : Call) : ℚ :=
  match c.method with
  | .tryConsume n => if 0 < n ∧ (b.tryConsume c.now n).1 then n else 0
  | _ => 0

def consumedBy (b : TokenBucket) (calls : List Call) : ℚ :=
  (Machine.log call (fun b c => [b.consumed c]) b calls).sum

variable (b : TokenBucket)

@[simp] lemma consumedBy_nil : b.consumedBy [] = 0 := rfl

@[simp] lemma consumedBy_cons (c : Call) (calls : List Call) :
    b.consumedBy (c :: calls) = b.consumed c + (b.call c).consumedBy calls := rfl

lemma consumed_nonneg (c : Call) : 0 ≤ b.consumed c := by
  rw [consumed]
  split
  · split
    · next h => exact h.1.le
    · exact le_rfl
  · exact le_rfl

lemma consumedBy_nonneg (calls : List Call) : 0 ≤ b.consumedBy calls := by
  induction calls generalizing b with
  | nil => exact le_rfl
  | cons c calls ih => exact add_nonneg (consumed_nonneg b c) (ih (b.call c))

/-- The clock does not go back. -/
def Clocked (start : ℚ) (calls : List Call) : Prop :=
  (start :: calls.map Call.now).Pairwise (· ≤ ·)

/-- What a bucket promises of every run. Where `hooked`, the interval may hold a call of
`resetToFull`, which is there for tests. -/
structure Exact (b : TokenBucket) (hooked : Bool) : Prop where
  within : ∀ calls, Clocked b.lastRefillAt calls →
    0 ≤ (Machine.run call b calls).tokens ∧ (Machine.run call b calls).tokens ≤ b.capacity
  interval : ∀ before calls, Clocked b.lastRefillAt (before ++ calls) →
    (∀ c ∈ calls, c.method = .resetToFull → hooked = true) →
    ∀ first last, first ≤ last → (∀ c ∈ calls, first ≤ c.now ∧ c.now ≤ last) →
      (Machine.run call b before).consumedBy calls ≤
        b.capacity + b.qps * (last - first) / 1000
  progress : ∀ before now waits later,
    Clocked b.lastRefillAt (before ++ ⟨now, .timeUntilNext 1⟩ :: waits ++
      [⟨later, .tryConsume 1⟩]) →
    let asked := (Machine.run call b before).timeUntilNext now 1
    asked.2.consumedBy waits = 0 → now + asked.1 ≤ later →
      ((Machine.run call asked.2 waits).tryConsume later 1).1 = true

/-! ## What one call does -/

/-- A bucket whose tokens are within its capacity. -/
structure Sound (b : TokenBucket) : Prop where
  qps : 0 < b.qps
  tokens : 0 ≤ b.tokens
  capacity : b.tokens ≤ b.capacity

variable {b : TokenBucket} {c : Call} {now later : ℚ}

lemma sound_ofOptions {options : TokenBucketOptions} (h : ofOptions options now = .ok b) :
    b.Sound ∧ b.capacity = options.burst.getD options.qps ∧ b.tokens = b.capacity ∧
      0 < b.capacity ∧ b.lastRefillAt = now := by
  obtain ⟨qps, burst⟩ := options
  rw [ofOptions] at h
  split at h
  · cases h
  · next hn =>
    have hqps : 0 < qps := not_le.1 hn
    cases burst with
    | none =>
      cases h
      exact ⟨⟨hqps, hqps.le, le_rfl⟩, rfl, rfl, hqps, rfl⟩
    | some burst =>
      simp only at h
      split at h
      · cases h
      · next hn =>
        have hburst : 0 < burst := not_le.1 hn
        cases h
        exact ⟨⟨hqps, hburst.le, le_rfl⟩, rfl, rfl, hburst, rfl⟩

@[simp] lemma refill_capacity : (b.refill now).capacity = b.capacity := by
  rw [refill]; split <;> rfl

@[simp] lemma refill_qps : (b.refill now).qps = b.qps := by
  rw [refill]; split <;> rfl

lemma refill_lastRefillAt : (b.refill now).lastRefillAt = max b.lastRefillAt now := by
  rw [refill]
  split
  · next h => rw [max_eq_left (sub_nonpos.1 h)]
  · next h => rw [max_eq_right (le_of_lt (sub_pos.1 (not_le.1 h)))]

lemma refill_tokens (hb : b.Sound) (now : ℚ) : (b.refill now).tokens =
    min b.capacity (b.tokens + (max b.lastRefillAt now - b.lastRefillAt) / 1000 * b.qps) := by
  rw [refill]
  split
  · next h => rw [max_eq_left (sub_nonpos.1 h)]; simp [hb.capacity]
  · next h => rw [max_eq_right (le_of_lt (sub_pos.1 (not_le.1 h)))]

lemma earned_nonneg (hb : b.Sound) (now : ℚ) :
    0 ≤ (max b.lastRefillAt now - b.lastRefillAt) / 1000 * b.qps :=
  mul_nonneg (div_nonneg (sub_nonneg.2 (le_max_left ..)) (by norm_num)) hb.qps.le

lemma sound_refill (hb : b.Sound) (now : ℚ) : (b.refill now).Sound where
  qps := by rw [refill_qps]; exact hb.qps
  tokens := by
    rw [refill_tokens hb]
    exact le_min (hb.tokens.trans hb.capacity) (add_nonneg hb.tokens (earned_nonneg hb now))
  capacity := by rw [refill_tokens hb, refill_capacity]; exact min_le_left ..

/-- Asking twice earns no more than asking once. -/
lemma refill_refill (hb : b.Sound) (h : now ≤ later) :
    ((b.refill now).refill later).tokens = (b.refill later).tokens := by
  have hq := hb.qps
  rw [refill_tokens (sound_refill hb now), refill_tokens hb, refill_tokens hb, refill_lastRefillAt,
    refill_capacity, refill_qps, max_assoc, max_eq_right h]
  have hlast : max b.lastRefillAt now ≤ max b.lastRefillAt later := max_le_max le_rfl h
  have he : 0 ≤ (max b.lastRefillAt later - max b.lastRefillAt now) / 1000 * b.qps :=
    mul_nonneg (div_nonneg (sub_nonneg.2 hlast) (by norm_num)) hq.le
  rw [min_add, ← min_assoc, min_eq_left (le_add_of_nonneg_right he)]
  ring_nf

/-- A call leaves the bucket alone, or refills it and takes out what it consumes. -/
lemma call_cases (hb : b.Sound) (hc : c.method ≠ .resetToFull) :
    b.call c = b ∧ b.consumed c = 0 ∨
      0 ≤ b.consumed c ∧ b.consumed c ≤ (b.refill c.now).tokens ∧
        b.call c =
          { b.refill c.now with tokens := (b.refill c.now).tokens - b.consumed c } := by
  obtain ⟨now, method⟩ := c
  have reads (h : b.call ⟨now, method⟩ = b.refill now) (h0 : b.consumed ⟨now, method⟩ = 0) :
      0 ≤ b.consumed ⟨now, method⟩ ∧ b.consumed ⟨now, method⟩ ≤ (b.refill now).tokens ∧
        b.call ⟨now, method⟩ =
          { b.refill now with tokens := (b.refill now).tokens - b.consumed ⟨now, method⟩ } := by
    rw [h, h0, sub_zero]
    exact ⟨le_rfl, (sound_refill hb now).tokens, rfl⟩
  cases method with
  | resetToFull => exact absurd rfl hc
  | currentTokens => exact .inr (reads rfl rfl)
  | timeUntilNext n =>
    refine .inr (reads ?_ rfl)
    change (b.timeUntilNext now n).2 = _
    rw [timeUntilNext]
    split <;> rfl
  | tryConsume n =>
    have hcall : b.call ⟨now, .tryConsume n⟩ = (b.tryConsume now n).2 := rfl
    have htaken : b.consumed ⟨now, .tryConsume n⟩ =
        if 0 < n ∧ (b.tryConsume now n).1 then n else 0 := rfl
    by_cases hn : n ≤ 0
    · rw [hcall, htaken, tryConsume, if_pos hn, if_neg (fun h => absurd h.1 (not_lt.2 hn))]
      exact .inl ⟨rfl, rfl⟩
    · by_cases hlt : (b.refill now).tokens < n
      · rw [tryConsume, if_neg hn, if_pos hlt] at hcall htaken
        exact .inr (reads hcall (htaken.trans (if_neg (fun h => Bool.noConfusion h.2))))
      · rw [tryConsume, if_neg hn, if_neg hlt] at hcall htaken
        rw [hcall, htaken, if_pos ⟨not_le.1 hn, rfl⟩]
        exact .inr ⟨(not_le.1 hn).le, not_lt.1 hlt, rfl⟩

lemma sound_call (hb : b.Sound) : (b.call c).Sound ∧ (b.call c).capacity = b.capacity ∧
    (b.call c).qps = b.qps ∧ (b.call c).lastRefillAt ≤ max b.lastRefillAt c.now := by
  by_cases hc : c.method = .resetToFull
  · rw [call, hc]
    exact ⟨⟨hb.qps, hb.tokens.trans hb.capacity, le_rfl⟩, rfl, rfl, le_max_right ..⟩
  · obtain ⟨h, -⟩ | ⟨h0, h1, h⟩ := call_cases hb hc
    · rw [h]
      exact ⟨hb, rfl, rfl, le_max_left ..⟩
    · have hr := sound_refill hb c.now
      rw [h]
      refine ⟨⟨hr.qps, sub_nonneg.2 h1, ?_⟩, refill_capacity, refill_qps, refill_lastRefillAt.le⟩
      exact (sub_le_self _ h0).trans hr.capacity

/-! ## Runs -/

variable {calls : List Call} {start first last : ℚ}

lemma clocked_cons : Clocked start (c :: calls) ↔ start ≤ c.now ∧ Clocked c.now calls := by
  simp only [Clocked, map_cons, pairwise_cons, mem_cons, mem_map, forall_eq_or_imp]
  constructor
  · rintro ⟨⟨h, -⟩, hc⟩
    exact ⟨h, hc⟩
  · rintro ⟨h, hc, hl⟩
    exact ⟨⟨h, fun t ht => h.trans (hc t ht)⟩, hc, hl⟩

/-- Of a run, the bucket is sound, and its clock shows no time before the last refill. -/
lemma sound_run (hb : b.Sound) (hlast : b.lastRefillAt ≤ start)
    {later : List Call} (h : Clocked start (calls ++ later)) :
    (run call b calls).Sound ∧
      (run call b calls).capacity = b.capacity ∧
      (run call b calls).qps = b.qps ∧
      ∃ now, (run call b calls).lastRefillAt ≤ now ∧ Clocked now later := by
  induction calls generalizing b start with
  | nil => exact ⟨hb, rfl, rfl, start, hlast, h⟩
  | cons c calls ih =>
    obtain ⟨hnow, h⟩ := clocked_cons.1 h
    obtain ⟨hs, hcap, hqps, hl⟩ := sound_call (c := c) hb
    rw [← hcap, ← hqps]
    exact ih hs (hl.trans (max_le (hlast.trans hnow) le_rfl)) h

/-- What is consumed up to a time was in the bucket or has been earned since. -/
lemma consumedBy_le (hb : b.Sound) (hlast : b.lastRefillAt ≤ last) (hle : first ≤ last)
    (hno : ∀ c ∈ calls, c.method ≠ .resetToFull)
    (h : ∀ c ∈ calls, first ≤ c.now ∧ c.now ≤ last) :
    b.consumedBy calls ≤ b.tokens + (last - b.lastRefillAt) / 1000 * b.qps ∧
      b.consumedBy calls ≤ b.capacity + (last - first) / 1000 * b.qps := by
  have hq := hb.qps.le
  induction calls generalizing b with
  | nil =>
    have hearn {t : ℚ} (ht : t ≤ last) : 0 ≤ (last - t) / 1000 * b.qps :=
      mul_nonneg (div_nonneg (sub_nonneg.2 ht) (by norm_num)) hq
    exact ⟨add_nonneg hb.tokens (hearn hlast), add_nonneg (hb.tokens.trans hb.capacity) (hearn hle)⟩
  | cons c calls ih =>
    obtain ⟨hs, -, hqps, -⟩ := sound_call (c := c) hb
    obtain ⟨hfirst, hnow⟩ := h c (.head _)
    have hrest := fun hl => ih hs hl (fun c hc => hno c (.tail _ hc))
      (fun c hc => h c (.tail _ hc)) (hqps ▸ hq)
    rw [consumedBy_cons]
    obtain ⟨hcall, h0⟩ | ⟨-, -, hcall⟩ := call_cases hb (hno c (.head _))
    · rw [hcall] at hrest ⊢
      rw [h0, zero_add]
      exact hrest hlast
    · have hl : (b.call c).lastRefillAt = max b.lastRefillAt c.now := by
        rw [hcall]; exact refill_lastRefillAt
      have ht : (b.call c).tokens = (b.refill c.now).tokens - b.consumed c := by rw [hcall]
      have hr := refill_tokens hb c.now
      have hearned := (hrest (hl ▸ max_le hlast hnow)).1
      rw [hl, ht, hqps] at hearned
      refine ⟨?_, ?_⟩
      · have := hr.trans_le (min_le_right ..)
        linarith
      · have hspan : (last - max b.lastRefillAt c.now) / 1000 * b.qps ≤
            (last - first) / 1000 * b.qps := by
          gcongr
          exact hfirst.trans (le_max_right ..)
        have := hr.trans_le (min_le_left ..)
        linarith

/-- A token that the bucket will hold stays, while none is consumed. -/
lemma one_le_of_consumedBy (hb : b.Sound) (hcap : 1 ≤ b.capacity)
    (h : ∀ c ∈ calls, c.now ≤ later) (h0 : b.consumedBy calls = 0)
    (h1 : 1 ≤ (b.refill later).tokens) :
    1 ≤ ((run call b calls).refill later).tokens := by
  induction calls generalizing b with
  | nil => exact h1
  | cons c calls ih =>
    obtain ⟨hs, hcapacity, -, -⟩ := sound_call (c := c) hb
    have hnow : c.now ≤ later := h c (.head _)
    obtain ⟨hc0, hrest⟩ :=
      (add_eq_zero_iff_of_nonneg (consumed_nonneg b c) (consumedBy_nonneg _ calls)).1 h0
    refine ih hs (hcapacity ▸ hcap) (fun c' hc' => h c' (.tail _ hc')) hrest ?_
    by_cases hreset : c.method = .resetToFull
    · have hcall : b.call c = b.resetToFull c.now := by rw [call, hreset]
      rw [refill_tokens hs, hcall]
      refine le_min hcap (hcap.trans (le_add_of_nonneg_right ?_))
      rw [← hcall]
      exact earned_nonneg hs later
    · obtain ⟨hcall, -⟩ | ⟨-, -, hcall⟩ := call_cases hb hreset
      · rw [hcall]
        exact h1
      · rw [hcall, hc0, sub_zero]
        exact h1.trans_eq (refill_refill hb hnow).symm

lemma tryConsume_one : (b.tryConsume now 1).1 = true ↔ 1 ≤ (b.refill now).tokens := by
  rw [tryConsume, if_neg (by norm_num)]
  split
  · next h => simpa using h
  · next h => simpa using h

/-- Who has waited as long as it was told finds a token. -/
lemma one_le_refill_of_timeUntilNext (hb : b.Sound) (hcap : 1 ≤ b.capacity)
    (hlast : b.lastRefillAt ≤ now) (h : now + (b.timeUntilNext now 1).1 ≤ later) :
    1 ≤ ((b.refill now).refill later).tokens := by
  have hs := sound_refill hb now
  have hl : (b.refill now).lastRefillAt = now := refill_lastRefillAt.trans (max_eq_right hlast)
  rw [refill_tokens hs, hl, refill_capacity]
  refine le_min hcap ?_
  rw [timeUntilNext] at h
  split at h
  · next h1 =>
    have he := earned_nonneg hs later
    rw [hl] at he
    exact h1.trans (le_add_of_nonneg_right he)
  · next h1 =>
    have hceil := Int.le_ceil ((1 - (b.refill now).tokens) / b.qps * 1000)
    have hwait : (1 - (b.refill now).tokens) / b.qps * 1000 ≤ max now later - now :=
      hceil.trans ((le_sub_iff_add_le'.2 h).trans (sub_le_sub_right (le_max_right ..) _))
    have hearn : (1 - (b.refill now).tokens) / b.qps * 1000 / 1000 * b.qps ≤
        (max now later - now) / 1000 * b.qps :=
      mul_le_mul_of_nonneg_right (div_le_div_of_nonneg_right hwait (by norm_num)) hb.qps.le
    rw [mul_div_cancel_right₀ _ (by norm_num), div_mul_cancel₀ _ hb.qps.ne'] at hearn
    rw [refill_qps]
    exact sub_le_iff_le_add'.1 hearn

/-- A bucket keeps its promises where it can hold a token, of the intervals in which
`resetToFull` is not called. -/
theorem exact_ofOptions_iff (options : TokenBucketOptions) (now : ℚ)
    (h : ofOptions options now = .ok b) (hooked : Bool) :
    b.Exact hooked ↔ 1 ≤ options.burst.getD options.qps ∧ hooked = false := by
  obtain ⟨hb, hcap, hfull, hpos, hl⟩ := sound_ofOptions h
  rw [← hcap]
  refine ⟨fun he => ⟨?_, ?_⟩, ?_⟩
  · have hw := he.progress [] now [] (max now (now + (b.timeUntilNext now 1).1))
      (by simp [Clocked, hl]) rfl (le_max_right ..)
    obtain ⟨hs, hcap', -, -⟩ := sound_call (c := ⟨now, .timeUntilNext 1⟩) hb
    rw [tryConsume_one] at hw
    exact (hw.trans (sound_refill hs _).capacity).trans_eq (refill_capacity.trans hcap')
  · cases hooked with
    | false => rfl
    | true =>
      have htwice := he.interval [] [⟨now, .tryConsume b.capacity⟩, ⟨now, .resetToFull⟩,
        ⟨now, .tryConsume b.capacity⟩] (by simp [Clocked, hl]) (fun _ _ _ => rfl) now now le_rfl
        (by simp)
      have htakes {b' : TokenBucket} (hfull : b.capacity ≤ b'.tokens) (hl : b'.lastRefillAt = now) :
          b'.consumed ⟨now, .tryConsume b.capacity⟩ = b.capacity := by
        have htaken : (b'.tryConsume now b.capacity).1 = true := by
          rw [tryConsume, if_neg (not_le.2 hpos), refill, hl, sub_self, if_pos le_rfl,
            if_neg (not_lt.2 hfull)]
        exact if_pos ⟨hpos, htaken⟩
      have hcap' := (sound_call (c := ⟨now, .tryConsume b.capacity⟩) hb).2.1
      have hreset (b : TokenBucket) : b.consumed ⟨now, .resetToFull⟩ = 0 := rfl
      rw [run_nil, consumedBy_cons, consumedBy_cons, consumedBy_cons, consumedBy_nil,
        htakes hfull.ge hl, hreset, htakes hcap'.ge rfl] at htwice
      exact absurd htwice (by simpa using hpos)
  · rintro ⟨hone, rfl⟩
    refine ⟨fun calls hc => ?_, ?_, ?_⟩
    · obtain ⟨hs, hcap', -⟩ := sound_run hb le_rfl (calls.append_nil.symm ▸ hc)
      exact ⟨hs.tokens, hcap' ▸ hs.capacity⟩
    · intro before calls hc hno first last hle hin
      obtain ⟨hs, hcap', hqps', t, ht, hct⟩ := sound_run hb le_rfl hc
      have hno' : ∀ c ∈ calls, c.method ≠ .resetToFull :=
        fun c hc hm => Bool.noConfusion (hno c hc hm)
      rw [← hcap', ← hqps']
      cases calls with
      | nil =>
        exact add_nonneg (hs.tokens.trans hs.capacity)
          (div_nonneg (mul_nonneg hs.qps.le (sub_nonneg.2 hle)) (by norm_num))
      | cons c calls =>
        have hlast := ht.trans ((clocked_cons.1 hct).1.trans (hin c (.head _)).2)
        exact (consumedBy_le hs hlast hle hno' hin).2.trans_eq (by ring)
    · intro before t waits later hc asked h0 hlater
      rw [append_assoc, cons_append] at hc
      obtain ⟨hs, hcap', -, u, hu, hcu⟩ := sound_run hb le_rfl hc
      have hasked : asked.2 = (run call b before).refill t := by
        change (timeUntilNext _ _ _).2 = _
        rw [timeUntilNext]
        split <;> rfl
      have hwaits : ∀ c ∈ waits, c.now ≤ later := by
        have hpair := (pairwise_cons.1 (clocked_cons.1 hcu).2).2
        rw [map_append, pairwise_append] at hpair
        exact fun c hc => hpair.2.2 _ (mem_map_of_mem hc) _ (.head _)
      have hone' : 1 ≤ (run call b before).capacity := hcap'.symm ▸ hone
      rw [hasked] at h0 ⊢
      refine tryConsume_one.2 (one_le_of_consumedBy (sound_refill hs t)
        (hone'.trans_eq refill_capacity.symm) hwaits h0 ?_)
      exact one_le_refill_of_timeUntilNext hs hone' (hu.trans (clocked_cons.1 hcu).1) hlater

theorem exact_hundred_ofOptions_iff : (⟨100, 20, 20, 0⟩ : TokenBucket).Exact false ↔
      (1 : ℚ) ≤ (some (20 : ℚ)).getD 100 ∧ false = false :=
  exact_ofOptions_iff ⟨100, some 20⟩ 0 (by norm_num [ofOptions]) false

/-- Half a token a second, and room for no more than half a token: no wait is enough. -/
theorem not_exact_half : ofOptions ⟨1 / 2, none⟩ 0 = .ok ⟨1 / 2, 1 / 2, 1 / 2, 0⟩ ∧
    (timeUntilNext ⟨1 / 2, 1 / 2, 1 / 2, 0⟩ 0 1).1 = 1000 ∧
      (tryConsume ⟨1 / 2, 1 / 2, 1 / 2, 0⟩ 1000 1).1 = false ∧
        ¬ (⟨1 / 2, 1 / 2, 1 / 2, 0⟩ : TokenBucket).Exact false := by
  have hwait : (timeUntilNext ⟨1 / 2, 1 / 2, 1 / 2, 0⟩ 0 1).1 = 1000 := by
    norm_num [timeUntilNext, refill]
  have hfails : (tryConsume ⟨1 / 2, 1 / 2, 1 / 2, 0⟩ 1000 1).1 = false := by
    norm_num [tryConsume, refill]
  refine ⟨by norm_num [ofOptions], hwait, hfails, fun he => ?_⟩
  have hserved := he.progress [] 0 [] 1000 (by simp [Clocked]) rfl
    (by rw [run_nil, hwait]; norm_num)
  norm_num [tryConsume, refill, timeUntilNext] at hserved

end TokenBucket
end ActorTs.Actor
