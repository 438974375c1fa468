import ActorTs.Library.Machine
import Mathlib.Algebra.Order.Field.Rat

/-!
# The write lock of the filesystem backend

A `put` or a `delete` of a key holds a lock file beside the key's file while it reads, checks
and replaces the body. The file is made exclusively; a call that finds it there tries again
until its time is up, and then looks once at how old it is. A file that is too old is removed,
and one more try is made.

Every call of the filesystem is a step of its own, and a process may fail in any of them or stop for
good between two. The clock is the same for all. A lock file is told from another by a number that
nothing in the code reads, and what each rename replaced is noted.
-/

namespace ActorTs.FilesystemLock

structure Options where
  lockTimeoutMs : ℚ
  staleLockMs : ℚ
  staleLockMs_pos : 0 < staleLockMs

/-- The arguments of a `put`: `ifNoneMatch` is `*` or not given. -/
structure Put (β ε μ : Type*) where
  body : β
  ifNoneMatch : Bool
  ifMatch : Option ε
  metadata : Option μ

inductive Call (β ε μ : Type*) where
  | put (put : Put β ε μ)
  | delete

/-- A lock file, with the process that made it. -/
structure LockFile (ι : Type*) where
  owner : ι
  serial : ℕ
  mtime : ℚ
  deriving DecidableEq

inductive Result where
  | done
  | concurrency
  | timedOut
  | failed
  deriving DecidableEq

/-- Where a process is. The call that a phase names is the one that comes next. -/
inductive Phase (ι β ε μ : Type*) where
  | idle
  /-- The lock file is made, if there is none. -/
  | acquiring (call : Call β ε μ) (start : ℚ) (reclaimAttempted : Bool)
  /-- There was one, and the time that is left is looked at. -/
  | collided (call : Call β ε μ) (start : ℚ) (reclaimAttempted : Bool)
  /-- The age of the lock file is asked for. -/
  | looking (call : Call β ε μ) (start : ℚ)
  | looked (call : Call β ε μ) (start : ℚ) (file : LockFile ι)
  /-- The lock file was found too old and is removed. -/
  | removing (call : Call β ε μ) (start : ℚ) (file : LockFile ι)
  /-- The lock is held; the body is read or, by a `delete`, removed. -/
  | holding (call : Call β ε μ) (file : LockFile ι)
  | checking (put : Put β ε μ) (file : LockFile ι) (existing : Option β)
  /-- The new body is in a file of its own, which is renamed to that of the key. -/
  | replacing (put : Put β ε μ) (file : LockFile ι) (existing : Option β)
  | writingMeta (metadata : μ) (file : LockFile ι)
  | unlinkingMeta (file : LockFile ι)
  /-- The lock file is removed. -/
  | releasing (file : LockFile ι) (result : Result)
  | returned (result : Result)
  | crashed

/-- A rename that replaced the body of the key. -/
structure Write (β ε μ : Type*) where
  put : Put β ε μ
  replaced : Option β

structure World (ι β ε μ : Type*) where
  now : ℚ
  lock : Option (LockFile ι)
  serial : ℕ
  body : Option β
  sidecar : Option μ
  phases : ι → Phase ι β ε μ
  writes : List (Write β ε μ)

inductive Input (ι β ε μ : Type*) where
  /-- The clock goes on to a later time. -/
  | tick (time : ℚ)
  | call (p : ι) (call : Call β ε μ)
  /-- A process takes its next step. -/
  | act (p : ι)
  /-- The call of the filesystem that a process makes next fails. -/
  | fault (p : ι)
  | crash (p : ι)

variable {ι β ε μ : Type*}

/-- The conditions of a `put` hold of the body that is there. -/
def Put.Allows (etag : β → ε) (put : Put β ε μ) (existing : Option β) : Prop :=
  (put.ifNoneMatch = true → existing = none) ∧
    ∀ expected, put.ifMatch = some expected → existing.map etag = some expected

instance [DecidableEq ε] (etag : β → ε) (put : Put β ε μ) (existing : Option β) :
    Decidable (put.Allows etag existing) :=
  decidable_of_iff ((put.ifNoneMatch = true → existing.isNone = true) ∧
      ∀ expected ∈ put.ifMatch, existing.map etag = some expected) <| by
    simp [Put.Allows]

/-- A process with nothing to do begins a call. -/
def begin (now : ℚ) (call : Call β ε μ) : Phase ι β ε μ → Phase ι β ε μ
  | .idle => .acquiring call now false
  | .returned _ => .acquiring call now false
  | phase => phase

/-- What a failing call of the filesystem leads to. The release and the removal of an old lock
file swallow it, and so does the look at one. -/
def Phase.fail : Phase ι β ε μ → Phase ι β ε μ
  | .acquiring _ _ _ => .returned .failed
  | .looking call start => .acquiring call start true
  | .removing call start _ => .acquiring call start true
  | .holding _ file => .releasing file .failed
  | .checking _ file _ => .releasing file .failed
  | .replacing _ file _ => .releasing file .failed
  | .writingMeta _ file => .releasing file .failed
  | .unlinkingMeta file => .releasing file .done
  | .releasing _ result => .returned result
  | phase => phase

namespace World

variable [DecidableEq ι]

def setPhase (p : ι) (phase : Phase ι β ε μ) (s : World ι β ε μ) : World ι β ε μ :=
  { s with phases := Function.update s.phases p phase }

variable [DecidableEq ε]

/-- The next step of a process. -/
def act (options : Options) (etag : β → ε) (p : ι) (s : World ι β ε μ) : World ι β ε μ :=
  match s.phases p with
  | .acquiring call start reclaimAttempted =>
    match s.lock with
    | some _ => s.setPhase p (.collided call start reclaimAttempted)
    | none =>
      let file : LockFile ι := ⟨p, s.serial, s.now⟩
      setPhase p (.holding call file) { s with lock := some file, serial := s.serial + 1 }
  | .collided call start reclaimAttempted =>
    if s.now - start < options.lockTimeoutMs then
      s.setPhase p (.acquiring call start reclaimAttempted)
    else if reclaimAttempted then s.setPhase p (.returned .timedOut)
    else s.setPhase p (.looking call start)
  | .looking call start =>
    match s.lock with
    | none => s.setPhase p (.acquiring call start true)
    | some file => s.setPhase p (.looked call start file)
  | .looked call start file =>
    if options.staleLockMs < s.now - file.mtime then s.setPhase p (.removing call start file)
    else s.setPhase p (.returned .timedOut)
  | .removing call start _ => setPhase p (.acquiring call start true) { s with lock := none }
  | .holding (.put put) file => s.setPhase p (.checking put file s.body)
  | .holding .delete file => setPhase p (.unlinkingMeta file) { s with body := none }
  | .checking put file existing =>
    if put.Allows etag existing then s.setPhase p (.replacing put file existing)
    else s.setPhase p (.releasing file .concurrency)
  | .replacing put file _ =>
    let next := match put.metadata with
      | none => .releasing file .done
      | some metadata => .writingMeta metadata file
    setPhase p next { s with body := some put.body, writes := s.writes ++ [⟨put, s.body⟩] }
  | .writingMeta metadata file =>
    setPhase p (.releasing file .done) { s with sidecar := some metadata }
  | .unlinkingMeta file => setPhase p (.releasing file .done) { s with sidecar := none }
  | .releasing _ result => setPhase p (.returned result) { s with lock := none }
  | .idle => s
  | .returned _ => s
  | .crashed => s

def step (options : Options) (etag : β → ε) (s : World ι β ε μ) : Input ι β ε μ → World ι β ε μ
  | .tick time => { s with now := max s.now time }
  | .call p call => s.setPhase p (begin s.now call (s.phases p))
  | .act p => s.act options etag p
  | .fault p => s.setPhase p (s.phases p).fail
  | .crash p => s.setPhase p .crashed

/-- A world in which no process has done anything yet. -/
def initial (body : Option β) (sidecar : Option μ) : World ι β ε μ where
  now := 0
  lock := none
  serial := 0
  body := body
  sidecar := sidecar
  phases _ := .idle
  writes := []

end World

end ActorTs.FilesystemLock
