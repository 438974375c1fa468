import Mathlib.Data.List.Basic

/-!
# A queue in front of one consumer

Values are pushed from outside and asked for one at a time. A consumer that asks an empty
queue waits, and the next value goes to it directly: nobody waits while something is queued,
and that is a field of the queue. What was handed out and what is queued, one behind the
other, is what was pushed.
-/

structure PushQueue (α : Type*) where
  queue : List α
  pendingResolve : Bool
  cancelled : Bool
  yielded : List α
  idle : pendingResolve = true → queue = []

namespace PushQueue

variable {α : Type*}

def empty : PushQueue α := ⟨[], false, false, [], fun _ => rfl⟩

def push (q : PushQueue α) (a : α) : PushQueue α :=
  if q.pendingResolve then
    { q with pendingResolve := false, yielded := q.yielded ++ [a], idle := nofun }
  else
    { q with
      queue := q.queue ++ [a]
      pendingResolve := false
      idle := nofun }

/-- The consumer asks for a value, unless it still waits for one. -/
def next (q : PushQueue α) : PushQueue α :=
  if q.cancelled then q
  else match h : q.queue with
    | [] => { q with pendingResolve := true, idle := fun _ => h }
    | a :: queue =>
      { q with
        queue
        pendingResolve := false
        yielded := q.yielded ++ [a]
        idle := nofun }

/-- The consumer leaves, and is told so when it waits. -/
def cancel (q : PushQueue α) : PushQueue α :=
  { q with cancelled := true, pendingResolve := false, idle := nofun }

/-- Everything that was pushed: handed out, or queued to be. -/
def delivered (q : PushQueue α) : List α := q.yielded ++ q.queue

variable (q : PushQueue α)

lemma delivered_push (a : α) : (q.push a).delivered = q.delivered ++ [a] := by
  rw [push]
  split
  · next hpending => simp [delivered, q.idle hpending]
  · simp [delivered]

@[simp] lemma cancelled_push (a : α) : (q.push a).cancelled = q.cancelled := by
  rw [push]
  split <;> rfl

lemma delivered_next : q.next.delivered = q.delivered := by
  rw [next]
  split
  · rfl
  · split
    · rfl
    · next h => simp [delivered, h]

@[simp] lemma cancelled_next : q.next.cancelled = q.cancelled := by
  rw [next]
  split
  · rfl
  · split <;> rfl

@[simp] lemma delivered_cancel : q.cancel.delivered = q.delivered := rfl

lemma yielded_prefix : q.yielded <+: q.delivered := List.prefix_append _ _

end PushQueue
