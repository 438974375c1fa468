import ActorTs.Persistence.ObjectStorage.FilesystemLock
import Mathlib

/-!
# When the write lock excludes

Where a process removes as too old only the lock file that it looked at, the lock file that is there
is that of the one process that holds the lock, and the body is the one that it read.

A process that goes on with the removal of a file that another one has removed in the meantime
removes the lock file of whoever came after it.
-/

open Option Function

namespace ActorTs.FilesystemLock

open Machine World

variable {ι β ε μ : Type*}

/-- The lock file of a process that holds the lock. -/
def Phase.file? : Phase ι β ε μ → Option (LockFile ι)
  | .holding _ file => some file
  | .checking _ file _ => some file
  | .replacing _ file _ => some file
  | .writingMeta _ file => some file
  | .unlinkingMeta file => some file
  | .releasing file _ => some file
  | _ => none

/-- The body that a process has read and not yet replaced. -/
def Phase.existing? : Phase ι β ε μ → Option (Option β)
  | .checking _ _ existing => some existing
  | .replacing _ _ existing => some existing
  | _ => none

/-- The lock file that a process is about to remove as too old. -/
def Phase.removing? : Phase ι β ε μ → Option (LockFile ι)
  | .removing _ _ file => some file
  | _ => none

/-- The `put` whose conditions a process has checked, with the body that it read. -/
def Phase.checked? : Phase ι β ε μ → Option (Put β ε μ × Option β)
  | .replacing put _ existing => some (put, existing)
  | _ => none

lemma Phase.exists_file?_of_existing? {phase : Phase ι β ε μ} {existing : Option β}
    (h : phase.existing? = some existing) : ∃ file, phase.file? = some file := by
  cases phase with
  | checking put file existing => exact ⟨file, rfl⟩
  | replacing put file existing => exact ⟨file, rfl⟩
  | _ => cases h

lemma Phase.exists_file?_of_checked? {phase : Phase ι β ε μ} {checked : Put β ε μ × Option β}
    (h : phase.checked? = some checked) : ∃ file, phase.file? = some file := by
  cases phase with
  | replacing put file existing => exact ⟨file, rfl⟩
  | _ => cases h

lemma Phase.fail_cases (phase : Phase ι β ε μ) :
    phase.fail.removing? = none ∧ phase.fail.existing? = none ∧
      (phase.fail.file? = none ∨
        ∃ file, phase.file? = some file ∧ phase.fail.file? = some file) := by
  cases phase with
  | holding call file => exact ⟨rfl, rfl, .inr ⟨file, rfl, rfl⟩⟩
  | checking put file existing => exact ⟨rfl, rfl, .inr ⟨file, rfl, rfl⟩⟩
  | replacing put file existing => exact ⟨rfl, rfl, .inr ⟨file, rfl, rfl⟩⟩
  | writingMeta metadata file => exact ⟨rfl, rfl, .inr ⟨file, rfl, rfl⟩⟩
  | unlinkingMeta file => exact ⟨rfl, rfl, .inr ⟨file, rfl, rfl⟩⟩
  | _ => exact ⟨rfl, rfl, .inl rfl⟩

namespace World

/-- At most one process that has not crashed is between acquiring and releasing the lock. -/
def Exclusive (s : World ι β ε μ) : Prop :=
  ∀ p q file other, (s.phases p).file? = some file → (s.phases q).file? = some other → p = q

/-- Every rename replaced a body of which the conditions hold. -/
def WritesAllowed (etag : β → ε) (s : World ι β ε μ) : Prop :=
  ∀ w ∈ s.writes, w.put.Allows etag w.replaced

/-- No process holds the lock for longer than the time after which a lock file is too old. -/
def Prompt (options : Options) (s : World ι β ε μ) : Input ι β ε μ → Prop
  | .tick time => ∀ p file, (s.phases p).file? = some file →
      time ≤ file.mtime + options.staleLockMs
  | _ => True

/-- A process that removes a lock file as too old finds no other one than it looked at. -/
def RemovesWhatItLookedAt (s : World ι β ε μ) : Input ι β ε μ → Prop
  | .act p => ∀ file, (s.phases p).removing? = some file → ∀ other, s.lock = some other →
      other = file
  | _ => True

instance [Fintype ι] (options : Options) (s : World ι β ε μ) :
    ∀ input, Decidable (Prompt options s input)
  | .tick time => inferInstanceAs (Decidable (∀ p, ∀ file ∈ (s.phases p).file?,
      time ≤ file.mtime + options.staleLockMs))
  | .call _ _ => .isTrue trivial
  | .act _ => .isTrue trivial
  | .fault _ => .isTrue trivial
  | .crash _ => .isTrue trivial

instance [DecidableEq ι] (s : World ι β ε μ) : ∀ input, Decidable (RemovesWhatItLookedAt s input)
  | .act p => inferInstanceAs (Decidable (∀ file ∈ (s.phases p).removing?, ∀ other ∈ s.lock,
      other = file))
  | .tick _ => .isTrue trivial
  | .call _ _ => .isTrue trivial
  | .fault _ => .isTrue trivial
  | .crash _ => .isTrue trivial

/-- What is known of a world in which the lock excludes: its file is the holder's, which is
young, a file that is being removed is old, and the holder knows the body. -/
structure Guarded (options : Options) (etag : β → ε) (s : World ι β ε μ) : Prop where
  held : ∀ p file, (s.phases p).file? = some file →
    s.lock = some file ∧ file.owner = p ∧ s.now ≤ file.mtime + options.staleLockMs
  stale : ∀ p file, (s.phases p).removing? = some file →
    file.mtime + options.staleLockMs < s.now
  read : ∀ p existing, (s.phases p).existing? = some existing → s.body = existing
  checked : ∀ p put existing, (s.phases p).checked? = some (put, existing) →
    put.Allows etag existing
  writes : WritesAllowed etag s

variable {options : Options} {etag : β → ε} {s : World ι β ε μ} {p : ι}

lemma Guarded.exclusive (h : Guarded options etag s) : Exclusive s := by
  intro p q file other hp hq
  obtain ⟨hlock, hp, -⟩ := h.held p file hp
  obtain ⟨hlock', hq, -⟩ := h.held q other hq
  rw [hlock, some.injEq] at hlock'
  rw [← hp, ← hq, hlock']

lemma guarded_initial (body : Option β) (sidecar : Option μ) :
    Guarded options etag (initial body sidecar : World ι β ε μ) where
  held _ _ h := nomatch h
  stale _ _ h := nomatch h
  read _ _ h := nomatch h
  checked _ _ _ h := nomatch h
  writes _ h := nomatch h

variable {file : LockFile ι}

lemma Guarded.others (h : Guarded options etag s) (hp : (s.phases p).file? = some file) (q : ι)
    (other : LockFile ι) (hne : q ≠ p) : (s.phases q).file? ≠ some other :=
  fun hq => hne (h.exclusive q p other file hq hp)

lemma Guarded.others_of_removing (h : Guarded options etag s)
    (hsame : RemovesWhatItLookedAt s (.act p)) (hp : (s.phases p).removing? = some file) (q : ι)
    (other : LockFile ι) : (s.phases q).file? ≠ some other := by
  intro hq
  obtain ⟨hlock, -, hyoung⟩ := h.held q other hq
  have hold := h.stale p file hp
  rw [hsame file hp other hlock] at hyoung
  exact absurd hyoung (not_le.2 hold)

variable [DecidableEq ι]

variable {s' : World ι β ε μ} {phase : Phase ι β ε μ}

lemma Guarded.move (h : Guarded options etag s)
    (hphases : s'.phases = update s.phases p phase) (hnow : s'.now = s.now)
    (hothers : s'.lock = s.lock ∧ s'.body = s.body ∨
      ∀ q file, q ≠ p → (s.phases q).file? ≠ some file) (hfile : ∀ file, phase.file? = some file →
      s'.lock = some file ∧ file.owner = p ∧ s.now ≤ file.mtime + options.staleLockMs)
    (hstale : ∀ file, phase.removing? = some file → file.mtime + options.staleLockMs < s.now)
    (hread : ∀ existing, phase.existing? = some existing → s'.body = existing)
    (hchecked : ∀ put existing, phase.checked? = some (put, existing) → put.Allows etag existing)
    (hwrites : WritesAllowed etag s') : Guarded options etag s' where
  held q file hq := by
    rw [hnow]
    rw [hphases] at hq
    rcases eq_or_ne q p with rfl | hne
    · rw [update_self] at hq
      exact hfile file hq
    · rw [update_of_ne hne] at hq
      rcases hothers with ⟨hlock, -⟩ | hnone
      · rw [hlock]
        exact h.held q file hq
      · exact absurd hq (hnone q file hne)
  stale q file hq := by
    rw [hnow]
    rw [hphases] at hq
    rcases eq_or_ne q p with rfl | hne
    · rw [update_self] at hq
      exact hstale file hq
    · rw [update_of_ne hne] at hq
      exact h.stale q file hq
  read q existing hq := by
    rw [hphases] at hq
    rcases eq_or_ne q p with rfl | hne
    · rw [update_self] at hq
      exact hread existing hq
    · rw [update_of_ne hne] at hq
      rcases hothers with ⟨-, hbody⟩ | hnone
      · rw [hbody]
        exact h.read q existing hq
      · obtain ⟨file, hfile⟩ := Phase.exists_file?_of_existing? hq
        exact absurd hfile (hnone q file hne)
  checked q put existing hq := by
    rw [hphases] at hq
    rcases eq_or_ne q p with rfl | hne
    · rw [update_self] at hq
      exact hchecked put existing hq
    · rw [update_of_ne hne] at hq
      exact h.checked q put existing hq
  writes := hwrites

lemma Guarded.setPhase (h : Guarded options etag s)
    (hfile : ∀ file, phase.file? = some file → (s.phases p).file? = some file)
    (hstale : ∀ file, phase.removing? = some file → file.mtime + options.staleLockMs < s.now)
    (hread : ∀ existing, phase.existing? = some existing → s.body = existing)
    (hchecked : ∀ put existing, phase.checked? = some (put, existing) →
      put.Allows etag existing) : Guarded options etag (s.setPhase p phase) :=
  h.move rfl rfl (.inl ⟨rfl, rfl⟩) (fun file hphase => h.held p file (hfile file hphase))
    hstale hread hchecked h.writes

lemma Guarded.leave (h : Guarded options etag s)
    (hphases : s'.phases = update s.phases p phase) (hnow : s'.now = s.now)
    (hwrites : s'.writes = s.writes) (hothers : s'.lock = s.lock ∧ s'.body = s.body ∨
      ∀ q file, q ≠ p → (s.phases q).file? ≠ some file) (hfile : phase.file? = none)
    (hstale : phase.removing? = none) : Guarded options etag s' := by
  have hallowed : WritesAllowed etag s' := by
    rw [WritesAllowed, hwrites]
    exact h.writes
  refine h.move hphases hnow hothers (fun _ hf => (nomatch hfile.symm.trans hf))
    (fun _ hf => (nomatch hstale.symm.trans hf)) (fun existing hread => ?_)
    (fun put existing hchecked => ?_) hallowed
  · obtain ⟨file, hsome⟩ := Phase.exists_file?_of_existing? hread
    exact nomatch hfile.symm.trans hsome
  · obtain ⟨file, hsome⟩ := Phase.exists_file?_of_checked? hchecked
    exact nomatch hfile.symm.trans hsome

lemma Guarded.stay (h : Guarded options etag s)
    (hphases : s'.phases = update s.phases p phase) (hnow : s'.now = s.now)
    (hlock : s'.lock = s.lock) (hheld : (s.phases p).file? = some file)
    (hfile : phase.file? = some file) (hread : phase.existing? = none)
    (hwrites : WritesAllowed etag s') : Guarded options etag s' := by
  refine h.move hphases hnow (.inr fun q other hne => h.others hheld q other hne)
    (fun other hother => ?_) (fun _ hstale => ?_) (fun _ hf => (nomatch hread.symm.trans hf))
    (fun put existing hchecked => ?_) hwrites
  · rw [hlock]
    exact h.held p other (hheld.trans (hfile.symm.trans hother))
  · cases phase with
    | removing call start file => cases hfile
    | _ => cases hstale
  · cases phase with
    | replacing put file existing => cases hread
    | _ => cases hchecked

variable [DecidableEq ε]

lemma Guarded.act (h : Guarded options etag s) (hsame : RemovesWhatItLookedAt s (.act p)) :
    Guarded options etag (s.act options etag p) := by
  have hunchanged : ∀ {phase : Phase ι β ε μ}, phase.file? = none → phase.removing? = none →
      Guarded options etag (s.setPhase p phase) :=
    fun hfile hstale => h.leave rfl rfl rfl (.inl ⟨rfl, rfl⟩) hfile hstale
  cases hphase : s.phases p with
  | idle =>
    simp only [World.act, hphase]
    exact h
  | acquiring call start reclaimAttempted =>
    simp only [World.act, hphase]
    cases hlock : s.lock with
    | some file => exact hunchanged rfl rfl
    | none =>
      have hnone : ∀ q file, q ≠ p → (s.phases q).file? ≠ some file := by
        intro q file _ hq
        exact nomatch hlock.symm.trans (h.held q file hq).1
      refine h.move rfl rfl (.inr hnone) (fun file hfile => ?_) (fun _ hf => (nomatch hf))
        (fun _ hf => (nomatch hf)) (fun _ _ hf => (nomatch hf)) h.writes
      obtain rfl := some.inj hfile
      exact ⟨rfl, rfl, le_add_of_nonneg_right options.staleLockMs_pos.le⟩
  | collided call start reclaimAttempted =>
    simp only [World.act, hphase]
    split
    · exact hunchanged rfl rfl
    · split
      · exact hunchanged rfl rfl
      · exact hunchanged rfl rfl
  | looking call start =>
    simp only [World.act, hphase]
    cases s.lock with
    | none => exact hunchanged rfl rfl
    | some file => exact hunchanged rfl rfl
  | looked call start file =>
    simp only [World.act, hphase]
    split
    · next hold =>
      refine h.setPhase (fun _ hf => (nomatch hf)) (fun other hother => ?_)
        (fun _ hf => (nomatch hf)) (fun _ _ hf => (nomatch hf))
      obtain rfl := some.inj hother
      linarith
    · exact hunchanged rfl rfl
  | removing call start file =>
    simp only [World.act, hphase]
    have hremoving : (s.phases p).removing? = some file := by rw [hphase]; rfl
    exact h.leave rfl rfl rfl
      (.inr fun q other _ => h.others_of_removing hsame hremoving q other) rfl rfl
  | holding call file =>
    have hheld : (s.phases p).file? = some file := by rw [hphase]; rfl
    cases call with
    | put put =>
      simp only [World.act, hphase]
      refine h.setPhase (fun other hother => hheld.trans hother) (fun _ hf => (nomatch hf))
        (fun existing hread => some.inj hread) (fun _ _ hf => (nomatch hf))
    | delete =>
      simp only [World.act, hphase]
      exact h.stay rfl rfl rfl hheld rfl rfl h.writes
  | checking put file existing =>
    have hheld : (s.phases p).file? = some file := by rw [hphase]; rfl
    have hread : s.body = existing := h.read p existing (by rw [hphase]; rfl)
    simp only [World.act, hphase]
    split
    · next hallows =>
      refine h.setPhase (fun other hother => hheld.trans hother) (fun _ hf => (nomatch hf))
        (fun other hother => hread.trans (some.inj hother)) ?_
      intro put' existing' hchecked
      cases hchecked
      exact hallows
    · exact h.stay rfl rfl rfl hheld rfl rfl h.writes
  | replacing put file existing =>
    have hheld : (s.phases p).file? = some file := by rw [hphase]; rfl
    have hread : s.body = existing := h.read p existing (by rw [hphase]; rfl)
    have hallows := h.checked p put existing (by rw [hphase]; rfl)
    have hwrites : ∀ w ∈ s.writes ++ [⟨put, s.body⟩], w.put.Allows etag w.replaced := by
      intro w hw
      rcases List.mem_append.1 hw with hw | hw
      · exact h.writes w hw
      · obtain rfl := List.mem_singleton.1 hw
        rw [hread]
        exact hallows
    simp only [World.act, hphase]
    cases put.metadata with
    | none => exact h.stay rfl rfl rfl hheld rfl rfl hwrites
    | some metadata => exact h.stay rfl rfl rfl hheld rfl rfl hwrites
  | writingMeta metadata file =>
    have hheld : (s.phases p).file? = some file := by rw [hphase]; rfl
    simp only [World.act, hphase]
    exact h.stay rfl rfl rfl hheld rfl rfl h.writes
  | unlinkingMeta file =>
    have hheld : (s.phases p).file? = some file := by rw [hphase]; rfl
    simp only [World.act, hphase]
    exact h.stay rfl rfl rfl hheld rfl rfl h.writes
  | releasing file result =>
    have hheld : (s.phases p).file? = some file := by rw [hphase]; rfl
    simp only [World.act, hphase]
    exact h.leave rfl rfl rfl (.inr fun q other hne => h.others hheld q other hne) rfl rfl
  | returned result =>
    simp only [World.act, hphase]
    exact h
  | crashed =>
    simp only [World.act, hphase]
    exact h

lemma Guarded.step (h : Guarded options etag s) {input : Input ι β ε μ}
    (hprompt : Prompt options s input) (hsame : RemovesWhatItLookedAt s input) :
    Guarded options etag (s.step options etag input) := by
  cases input with
  | tick time =>
    refine ⟨fun p file hp => ?_, fun p file hp => ?_, h.read, h.checked, h.writes⟩
    · obtain ⟨hlock, howner, hnow⟩ := h.held p file hp
      exact ⟨hlock, howner, max_le hnow (hprompt p file hp)⟩
    · exact lt_of_lt_of_le (h.stale p file hp) (le_max_left _ _)
  | call p call =>
    rw [World.step]
    have hsame : Guarded options etag (s.setPhase p (s.phases p)) := by
      rw [World.setPhase, update_eq_self]
      exact h
    cases hphase : s.phases p with
    | idle => exact h.leave rfl rfl rfl (.inl ⟨rfl, rfl⟩) rfl rfl
    | returned result => exact h.leave rfl rfl rfl (.inl ⟨rfl, rfl⟩) rfl rfl
    | _ =>
      rw [hphase] at hsame
      exact hsame
  | act p => exact h.act hsame
  | fault p =>
    obtain ⟨hstale, hread, hfile | ⟨file, hheld, hfile⟩⟩ := (s.phases p).fail_cases
    · exact h.leave rfl rfl rfl (.inl ⟨rfl, rfl⟩) hfile hstale
    · exact h.stay rfl rfl rfl hheld hfile hread h.writes
  | crash p => exact h.leave rfl rfl rfl (.inl ⟨rfl, rfl⟩) rfl rfl

/-- In a run in which every process that removes a lock file as too old removes the one that it
looked at, at most one process holds the lock at a time, and every conditional `put` replaced
a body of which its condition holds. -/
theorem exclusive_run (options : Options) (etag : β → ε) (body : Option β) (sidecar : Option μ)
    (inputs : List (Input ι β ε μ))
    (h : Machine.Along (step options etag)
      (fun s input => Prompt options s input ∧ RemovesWhatItLookedAt s input)
      (initial body sidecar) inputs) :
    Exclusive (run (step options etag) (initial body sidecar) inputs) ∧
      WritesAllowed etag (run (step options etag) (initial body sidecar) inputs) := by
  have hguarded := invariant (I := Guarded options etag)
    (fun s input hinput hs => hs.step hinput.1 hinput.2) h (guarded_initial body sidecar)
  exact ⟨hguarded.exclusive, hguarded.writes⟩

def defaultOptions : Options where
  lockTimeoutMs := 5000
  staleLockMs := 30000
  staleLockMs_pos := by norm_num

def fresh (body : Bool) : Call Bool Bool Unit := .put ⟨body, true, none, none⟩

local instance neZeroThree : NeZero 3 := ⟨by decide⟩

/-- A process dies with the lock, and two others wait for their time to run out. -/
def abandoned : List (Input (Fin 3) Bool Bool Unit) :=
  [.call 0 (fresh true), .act 0, .crash 0, .tick 40000, .call 1 (fresh true),
    .call 2 (fresh false), .act 1, .act 2, .tick 45000]

/-- The two find the lock file too old, and one removes it and takes the lock before the other
one goes on. -/
def bothReclaim : List (Input (Fin 3) Bool Bool Unit) :=
  abandoned ++ [.act 1, .act 2, .act 1, .act 2, .act 1, .act 2, .act 1, .act 1, .act 2, .act 2]

theorem exclusive_run_reclaimed :
    Exclusive (run (step defaultOptions (fun body : Bool => body))
        (initial none none) (abandoned ++ [.act 1, .act 1, .act 1, .act 1, .act 1, .act 1, .act 1])) ∧
      WritesAllowed (fun body => body) (run
        (step defaultOptions (fun body : Bool => body)) (initial none none)
        (abandoned ++ [.act 1, .act 1, .act 1, .act 1, .act 1, .act 1, .act 1])) :=
  exclusive_run defaultOptions _ none none _ (by decide +kernel)

theorem not_exclusive_bothReclaim :
    ¬ ∀ inputs : List (Input (Fin 3) Bool Bool Unit),
      Machine.Along (step defaultOptions fun body => body) (Prompt defaultOptions)
          (initial none none) inputs →
        Exclusive (run (step defaultOptions fun body => body) (initial none none) inputs) ∧
        WritesAllowed (fun body => body) (run
          (step defaultOptions fun body => body) (initial none none) inputs) := by
  intro h
  have hexclusive := (h bothReclaim (by decide +kernel)).1
  have hheld : ((run (step defaultOptions fun body => body)
      (initial none none) bothReclaim).phases 1).file? = some ⟨1, 1, 45000⟩ := by decide +kernel
  have hheld' : ((run (step defaultOptions fun body => body)
      (initial none none) bothReclaim).phases 2).file? = some ⟨2, 2, 45000⟩ := by decide +kernel
  exact absurd (hexclusive 1 2 _ _ hheld hheld') (by decide)

end World

end ActorTs.FilesystemLock
