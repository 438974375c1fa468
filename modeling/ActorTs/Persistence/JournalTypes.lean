import ActorTs.Library.JsonString
import Mathlib.Data.Rat.Defs

/-!
# Events, snapshots and what a store refuses

What goes into a journal and a snapshot store and comes out of them. A store is free to
answer any number as a sequence number, so a stored one may be no natural number at all.
-/

namespace ActorTs.Persistence

/-- A number that stands where a sequence number should: a natural number, or the text of a
negative, fractional, infinite or missing one. -/
inductive SequenceNr where
  | natural (n : ℕ)
  | malformed (text : JsString)
  deriving DecidableEq

namespace SequenceNr

def value : SequenceNr → ℕ
  | natural n => n
  | malformed _ => 0

def isNatural : SequenceNr → Bool
  | natural _ => true
  | malformed _ => false

def text : SequenceNr → JsString
  | natural n => (Nat.repr n).toJs
  | malformed t => t

@[simp] lemma value_natural (n : ℕ) : (natural n).value = n := rfl

@[simp] lemma isNatural_natural (n : ℕ) : (natural n).isNatural = true := rfl

end SequenceNr

structure PersistentEvent (W : Type) where
  persistenceId : JsString
  sequenceNr : SequenceNr
  event : W
  timestamp : ℚ
  tags : Option (List JsString) := none

structure JournalEntry (W : Type) where
  event : W
  tags : Option (List JsString) := none

structure Snapshot (W : Type) where
  persistenceId : JsString
  sequenceNr : SequenceNr
  state : W
  timestamp : ℚ

/-- What a rejected call carries. Adapters, codecs and the actor's own fold throw `error`. -/
inductive PersistenceError where
  | concurrency (persistenceId : JsString) (expectedSeq actualSeq : ℕ)
  | snapshotIntegrity (message persistenceId : JsString) (sequenceNr : SequenceNr)
  | journalIntegrity (message persistenceId : JsString) (sequenceNr : SequenceNr)
  | error (message : JsString)

def PersistenceError.message : PersistenceError → JsString
  | concurrency persistenceId expectedSeq actualSeq =>
    "Journal concurrency mismatch for \"" ++ persistenceId ++ "\": expected " ++
      (Nat.repr expectedSeq).toJs ++ ", journal has " ++ (Nat.repr actualSeq).toJs
  | snapshotIntegrity message _ _ => message
  | journalIntegrity message _ _ => message
  | error message => message

def maxPersistenceIdLength : ℕ := 255

def maxTagLength : ℕ := 255

def maxTagsPerEvent : ℕ := 64

def pathTraversalSegments : List JsString := [".", ".."]

def hasControlCharacter (s : JsString) : Bool := s.any fun code => code ≤ 0x1F || code = 0x7F

def persistenceIdRejection (persistenceId : JsString) : Option JsString :=
  if persistenceId.length = 0 then some "must be a non-empty string"
  else if maxPersistenceIdLength < persistenceId.length then
    some ("must be at most " ++ (Nat.repr maxPersistenceIdLength).toJs ++
      " characters (got " ++ (Nat.repr persistenceId.length).toJs ++
      ") — the width of the persistence_id column")
  else if persistenceId.contains 0x2F || persistenceId.contains 0x5C then
    some ("must not contain a path separator (\"/\" or \"\\\") — object-storage " ++
      "keys use it to separate one stream from the next")
  else if persistenceId ∈ pathTraversalSegments then some "must not be \".\" or \"..\""
  else if hasControlCharacter persistenceId then
    some "must not contain control characters (including newlines)"
  else none

def assertValidPersistenceId (persistenceId origin : JsString) : Except PersistenceError Unit :=
  match persistenceIdRejection persistenceId with
  | none => .ok ()
  | some reason => .error (.error ("Invalid persistenceId " ++ JsonText.quote persistenceId ++
      " (" ++ origin ++ "): " ++ reason))

/-- The tags from one position on, `seen` being those before it. -/
def checkTags (index : ℕ) (seen : List JsString) : List JsString → Except PersistenceError Unit
  | [] => .ok ()
  | tag :: tags =>
    if tag.length = 0 then
      .error (.error ("invalid tag at index " ++ (Nat.repr index).toJs ++
        ": an empty tag is not allowed " ++
        "(it vanishes on one backend, becomes a queryable '' bucket on another, " ++
        "and fails the append on DynamoDB)"))
    else if maxTagLength < tag.length then
      .error (.error ("tag too long: " ++ (Nat.repr tag.length).toJs ++
        " characters exceeds the " ++ (Nat.repr maxTagLength).toJs ++
        "-character limit"))
    else if tag.contains 0x2C then
      .error (.error ("invalid tag " ++ JsonText.quote tag ++
        ": commas are not allowed (they corrupt the CSV tag column)"))
    else if hasControlCharacter tag then
      .error (.error ("invalid tag " ++ JsonText.quote tag ++
        ": control characters (including newlines) are not allowed"))
    else if tag ∈ seen then
      .error (.error ("invalid tag " ++ JsonText.quote tag ++
        ": duplicate tags are not allowed " ++
        "(a DynamoDB string set rejects a repeated member, " ++
        "and the others silently collapse or keep it)"))
    else checkTags (index + 1) (tag :: seen) tags

def assertValidTags : Option (List JsString) → Except PersistenceError Unit
  | none => .ok ()
  | some tags =>
    if maxTagsPerEvent < tags.length then
      .error (.error ("too many tags on one event: " ++ (Nat.repr tags.length).toJs ++
        " exceeds the " ++ (Nat.repr maxTagsPerEvent).toJs ++ "-tag limit"))
    else checkTags 0 [] tags

def assertValidEntryTags {W : Type} (entries : List (JournalEntry W)) :
    Except PersistenceError Unit :=
  entries.forM fun entry => assertValidTags entry.tags

end ActorTs.Persistence
