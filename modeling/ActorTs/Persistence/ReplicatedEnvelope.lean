import ActorTs.Library.Json
import ActorTs.Library.JsArithmetic
import ActorTs.Library.Stamp

/-!
# Envelopes of replicated events

What a peer puts on the wire is a claim: fields of any type, or missing. A claim that is not
rejected is read as an envelope, and an envelope is ordered by its stamp and told from others
by the id of its event.
-/

open Option OrderedMap

namespace ActorTs.Persistence

def maxReplicaIdLength : ℕ := 255

def replicatedEventIdEntropyCharacters : ℕ := 24

def maxReplicatedEventIdLength : ℕ := maxReplicaIdLength + 1 + replicatedEventIdEntropyCharacters

def maxVectorClockEntries : ℕ := 4096

def defaultMaxReplicatedObservedEvents : ℕ := 100000

abbrev VectorClockData := OrderedMap JsString ℚ

structure VectorClock where
  entries : OrderedMap JsString ℚ

namespace VectorClock

def empty : VectorClock := ⟨.empty⟩

def fromData (data : VectorClockData) : VectorClock := ⟨data⟩

def toJSON (vc : VectorClock) : VectorClockData := vc.entries

def get (vc : VectorClock) (replica : JsString) : ℚ := (vc.entries.get? replica).getD 0

def tick (vc : VectorClock) (replica : JsString) : VectorClock :=
  ⟨vc.entries.set replica (vc.get replica + 1)⟩

def mergeEntry (next : OrderedMap JsString ℚ) (entry : JsString × ℚ) : OrderedMap JsString ℚ :=
  if (next.get? entry.1).getD 0 < entry.2 then next.set entry.1 entry.2 else next

def merge (vc other : VectorClock) : VectorClock := ⟨other.entries.entries.foldl mergeEntry vc.entries⟩

end VectorClock

/-- A number of the language that is whole and of at most 53 digits. -/
def isSafeInteger : JsNumber → Bool
  | .finite x => x.toRat.den = 1 ∧ |x.toRat| ≤ 2 ^ 53 - 1
  | _ => false

def isFinite : JsNumber → Bool
  | .finite _ => true
  | _ => false

/-- The rational a finite number stands for. -/
def ratOf : JsNumber → ℚ
  | .finite x => x.toRat
  | _ => 0

/-- An envelope as it arrives, a field that is missing as `none`. -/
structure EnvelopeClaim (E : Type) where
  persistenceId : Option Json
  replica : Option Json
  seqAtReplica : Option Json
  eventId : Option Json
  vc : Option Json
  timestamp : Option Json
  event : E

structure ReplicatedEventEnvelope (E : Type) where
  replica : JsString
  seqAtReplica : ℕ
  eventId : Option JsString
  vc : VectorClockData
  timestamp : ℚ
  event : E

def vectorClockEntryRejection (entry : JsString × Json) : Option JsString :=
  if entry.1.length = 0 ∨ maxReplicaIdLength < entry.1.length then
    some ("a vc key is empty or longer than " ++ (Nat.repr maxReplicaIdLength).toJs ++
      " characters")
  else match entry.2 with
    | .num version =>
      if !isFinite version || ratOf version < 0 then
        some ("vc entry '" ++ entry.1 ++ "' must be a finite non-negative number")
      else none
    | _ => some ("vc entry '" ++ entry.1 ++ "' must be a finite non-negative number")

def vectorClockRejection : Option Json → Option JsString
  | some (.obj entries) =>
    if maxVectorClockEntries < entries.length then
      some ("vc carries " ++ (Nat.repr entries.length).toJs ++ " entries, at most " ++
        (Nat.repr maxVectorClockEntries).toJs ++ " are accepted")
    else entries.findSome? vectorClockEntryRejection
  | _ => some "vc must be a plain object"

/-- A text that is not empty and not too long. -/
def textRejection (claim : Option Json) (maximum : ℕ) (name empty : JsString) : Option JsString :=
  match claim with
  | some (.str text) =>
    if text.length = 0 then some empty
    else if maximum < text.length then
      some (name ++ " is " ++ (Nat.repr text.length).toJs ++ " characters, at most " ++
        (Nat.repr maximum).toJs ++ " are accepted")
    else none
  | _ => some empty

def numberRejection (claim : Option Json) (accepts : JsNumber → Bool) (reason : JsString) :
    Option JsString :=
  match claim with
  | some (.num x) => if accepts x then none else some reason
  | _ => some reason

namespace EnvelopeClaim

variable {E : Type} (claim : EnvelopeClaim E)

/-- The first reason against a claim, in the order of the checks. -/
def envelopeRejection : Option JsString :=
  (textRejection claim.replica maxReplicaIdLength "replica"
      "replica must be a non-empty string").or <|
  (textRejection claim.eventId maxReplicatedEventIdLength "eventId"
      ("eventId must be a non-empty string (a peer older than #706 does not send one)")).or <|
  (numberRejection claim.seqAtReplica (fun x => isSafeInteger x && 1 ≤ ratOf x)
      "seqAtReplica must be a positive safe integer").or <|
  (numberRejection claim.timestamp isFinite "timestamp must be a finite number").or <|
  vectorClockRejection claim.vc

def textOf : Option Json → Option JsString
  | some (.str text) => some text
  | _ => none

def numberOf : Option Json → ℚ
  | some (.num x) => ratOf x
  | _ => 0

def clockOf : Option Json → VectorClockData
  | some (.obj entries) =>
    entries.foldl (fun data entry => data.set entry.1 (numberOf (some entry.2))) .empty
  | _ => .empty

/-- A claim read at the types it was checked for. -/
def envelope : ReplicatedEventEnvelope E where
  replica := (textOf claim.replica).getD []
  seqAtReplica := (numberOf claim.seqAtReplica).num.toNat
  eventId := textOf claim.eventId
  vc := clockOf claim.vc
  timestamp := numberOf claim.timestamp
  event := claim.event

end EnvelopeClaim

namespace ReplicatedEventEnvelope

variable {E : Type}

def stamp (envelope : ReplicatedEventEnvelope E) : Stamp :=
  ⟨envelope.timestamp, envelope.replica, envelope.seqAtReplica⟩

def deduplicationKeyFor (envelope : ReplicatedEventEnvelope E) : JsString :=
  match envelope.eventId with
  | some eventId =>
    if 0 < eventId.length then eventId
    else envelope.replica ++ "#" ++ (Nat.repr envelope.seqAtReplica).toJs
  | none => envelope.replica ++ "#" ++ (Nat.repr envelope.seqAtReplica).toJs

def compare (a b : ReplicatedEventEnvelope E) : ℚ := Stamp.compare a.stamp b.stamp

end ReplicatedEventEnvelope

namespace VectorClock

/-- Every version that is kept is above zero. -/
def Positive (vc : VectorClock) : Prop := ∀ r v, vc.entries.get? r = some v → 0 < v

lemma positive_empty : empty.Positive := nofun

variable {vc : VectorClock}

lemma Positive.get_nonneg (h : vc.Positive) (r : JsString) : 0 ≤ vc.get r := by
  rw [get]
  cases hr : vc.entries.get? r with
  | none => exact le_rfl
  | some v => exact (h r v hr).le

lemma Positive.get?_eq (h : vc.Positive) (r : JsString) :
    vc.entries.get? r = if 0 < vc.get r then some (vc.get r) else none := by
  rw [get]
  cases hr : vc.entries.get? r with
  | none => exact (if_neg (lt_irrefl _)).symm
  | some v => exact (if_pos (h r v hr)).symm

lemma positive_mergeEntry (h : vc.Positive) (entry : JsString × ℚ) :
    Positive ⟨mergeEntry vc.entries entry⟩ := by
  intro r v hv
  rw [mergeEntry] at hv
  split_ifs at hv with hlt
  · rcases get?_set_cases hv with ⟨-, rfl⟩ | hold
    · exact (h.get_nonneg entry.1).trans_lt hlt
    · exact h r v hold
  · exact h r v hv

lemma get_mergeEntry (vc : VectorClock) (entry : JsString × ℚ) (r : JsString) :
    get ⟨mergeEntry vc.entries entry⟩ r =
      if entry.1 = r then max (vc.get r) entry.2 else vc.get r := by
  rw [mergeEntry, get, get]
  by_cases hr : entry.1 = r
  · subst hr
    rw [if_pos rfl]
    split_ifs with hlt
    · rw [get?_set_self, getD_some, max_eq_right hlt.le]
    · rw [max_eq_left (not_lt.1 hlt)]
  · rw [if_neg hr]
    split_ifs
    · rw [get?_set, if_neg hr]
    · rfl

lemma positive_merge (h : vc.Positive) (other : VectorClock) : (vc.merge other).Positive := by
  have hfold : ∀ l : List (JsString × ℚ), ∀ vc : VectorClock, vc.Positive →
      Positive ⟨l.foldl mergeEntry vc.entries⟩ := by
    intro l
    induction l with
    | nil => exact fun _ h => h
    | cons entry l ih => exact fun vc h => ih ⟨_⟩ (positive_mergeEntry h entry)
  exact hfold _ vc h

lemma get_merge (h : vc.Positive) (other : VectorClock) (r : JsString) :
    (vc.merge other).get r = max (vc.get r) (other.get r) := by
  have hfold : ∀ l : List (JsString × ℚ), (l.map Prod.fst).Nodup → ∀ vc : VectorClock,
      vc.Positive → get ⟨l.foldl mergeEntry vc.entries⟩ r =
        max (vc.get r) ((lookup r l).getD 0) := by
    intro l
    induction l with
    | nil =>
      intro _ vc h
      rw [lookup, getD_none, max_eq_left (h.get_nonneg r)]
      rfl
    | cons entry l ih =>
      intro hnodup vc h
      obtain ⟨hnew, hnodup⟩ := List.nodup_cons.1 hnodup
      rw [List.foldl_cons, ih hnodup ⟨_⟩ (positive_mergeEntry h entry), get_mergeEntry, lookup]
      split_ifs with hr
      · subst hr
        rw [lookup_eq_none_of_notMem hnew, getD_none, getD_some,
          max_eq_left (le_max_of_le_left (h.get_nonneg _))]
      · rfl
  exact hfold _ other.entries.nodupKeys vc h

end VectorClock

lemma text_of_textRejection {claim : Option Json} {maximum : ℕ} {name empty : JsString}
    (h : textRejection claim maximum name empty = none) :
    ∃ text, claim = some (.str text) ∧ 0 < text.length ∧ text.length ≤ maximum := by
  unfold textRejection at h
  split at h
  · next text =>
    split_ifs at h with hempty hlong
    exact ⟨text, rfl, Nat.pos_of_ne_zero hempty, not_lt.1 hlong⟩
  · cases h

lemma number_of_numberRejection {claim : Option Json} {accepts : JsNumber → Bool}
    {reason : JsString} (h : numberRejection claim accepts reason = none) :
    ∃ x, claim = some (.num x) ∧ accepts x = true := by
  unfold numberRejection at h
  split at h
  · next x =>
    split_ifs at h with hx
    exact ⟨x, rfl, hx⟩
  · cases h

lemma natCast_toNat_num {q : ℚ} (hden : q.den = 1) (hq : 0 ≤ q) : (q.num.toNat : ℚ) = q := by
  have hnum : (q.num : ℚ) = q := Rat.coe_int_num_of_den_eq_one hden
  have hnonneg : 0 ≤ q.num := Rat.num_nonneg.2 hq
  rw [← Int.cast_natCast, Int.toNat_of_nonneg hnonneg, hnum]

namespace EnvelopeClaim

variable {E : Type} {claim : EnvelopeClaim E}

lemma envelope_of_accepted (h : claim.envelopeRejection = none) :
    (claim.replica = some (.str claim.envelope.replica) ∧ 0 < claim.envelope.replica.length) ∧
    (∃ eventId, claim.eventId = some (.str eventId) ∧ 0 < eventId.length ∧
      claim.envelope.eventId = some eventId) ∧
    (∃ x, claim.seqAtReplica = some (.num x) ∧ (claim.envelope.seqAtReplica : ℚ) = ratOf x) ∧
    ∃ x, claim.timestamp = some (.num x) ∧ isFinite x = true ∧
      claim.envelope.timestamp = ratOf x := by
  rw [envelopeRejection, or_eq_none_iff, or_eq_none_iff, or_eq_none_iff, or_eq_none_iff] at h
  obtain ⟨hreplica, heventId, hseq, htimestamp, -⟩ := h
  obtain ⟨replica, hreplica, hlength, -⟩ := text_of_textRejection hreplica
  obtain ⟨eventId, heventId, hidLength, -⟩ := text_of_textRejection heventId
  obtain ⟨seq, hseq, haccepts⟩ := number_of_numberRejection hseq
  obtain ⟨timestamp, htimestamp, hfinite⟩ := number_of_numberRejection htimestamp
  refine ⟨?_, ⟨eventId, heventId, hidLength, ?_⟩, ⟨seq, hseq, ?_⟩, timestamp, htimestamp, hfinite, ?_⟩
  · rw [envelope, hreplica]
    exact ⟨rfl, hlength⟩
  · rw [envelope, heventId]
    rfl
  · rw [envelope, hseq]
    rw [Bool.and_eq_true, decide_eq_true_eq] at haccepts
    refine natCast_toNat_num ?_ (zero_le_one.trans haccepts.2)
    cases seq with
    | finite x =>
      rw [isSafeInteger, decide_eq_true_eq] at haccepts
      exact haccepts.1.1
    | nan => cases haccepts.1
    | infinity => cases haccepts.1
  · rw [envelope, htimestamp]
    rfl

end EnvelopeClaim

end ActorTs.Persistence
