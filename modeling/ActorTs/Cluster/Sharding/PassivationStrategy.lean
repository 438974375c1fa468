import ActorTs.Cluster.Sharding.FrequencySketch
import ActorTs.Library.JsArithmetic
import ActorTs.Library.OrderedMap

/-!
# The passivation strategy

A region that may hold a limited number of entities asks its passivation strategy which one
to give up for a new one. The strategy holds the resident ids in a main region, whose
replacement policy says who is next, behind an optional window of the newest. A filter may
send away what falls out of the window instead of the incumbent.

A call that answers returns its answer and the strategy after it.
-/

namespace ActorTs.Cluster.Sharding

/-- The ids in order of their last use, the oldest first. -/
structure RecencyRegion where
  order : OrderedSet JsString := .empty

namespace RecencyRegion

def touch (r : RecencyRegion) (entityId : JsString) : RecencyRegion :=
  if r.order.has entityId then ⟨(r.order.delete entityId).add entityId⟩ else r

def add (r : RecencyRegion) (entityId : JsString) : RecencyRegion :=
  ⟨(r.order.delete entityId).add entityId⟩

def remove (r : RecencyRegion) (entityId : JsString) : Bool × RecencyRegion :=
  (r.order.has entityId, ⟨r.order.delete entityId⟩)

def has (r : RecencyRegion) (entityId : JsString) : Bool := r.order.has entityId

def victim (r : RecencyRegion) : Option JsString := r.order.elems.head?

def size (r : RecencyRegion) : ℕ := r.order.size

end RecencyRegion

/-- Ids that were seen once, and behind them a bounded segment of those seen again. -/
structure SegmentedRecencyRegion where
  protectedCapacity : ℕ
  probation : RecencyRegion := {}
  protectedEntities : RecencyRegion := {}

namespace SegmentedRecencyRegion

/-- Each round takes one id out of the protected segment. -/
def demote : ℕ → SegmentedRecencyRegion → SegmentedRecencyRegion
  | 0, r => r
  | rounds + 1, r =>
    if r.protectedCapacity < r.protectedEntities.size then
      match r.protectedEntities.victim with
      | none => r
      | some demoted =>
        demote rounds { r with
          protectedEntities := (r.protectedEntities.remove demoted).2
          probation := r.probation.add demoted }
    else r

def demoteOverflow (r : SegmentedRecencyRegion) : SegmentedRecencyRegion :=
  r.demote r.protectedEntities.size

def touch (r : SegmentedRecencyRegion) (entityId : JsString) : SegmentedRecencyRegion :=
  if r.protectedEntities.has entityId then
    { r with protectedEntities := r.protectedEntities.touch entityId }
  else
    match r.probation.remove entityId with
    | (false, _) => r
    | (true, probation) =>
      { r with
        probation := probation
        protectedEntities := r.protectedEntities.add entityId }.demoteOverflow

def add (r : SegmentedRecencyRegion) (entityId : JsString) : SegmentedRecencyRegion :=
  { r with probation := r.probation.add entityId }

def remove (r : SegmentedRecencyRegion) (entityId : JsString) : Bool × SegmentedRecencyRegion :=
  match r.probation.remove entityId with
  | (true, probation) => (true, { r with probation := probation })
  | (false, probation) =>
    let answer := r.protectedEntities.remove entityId
    (answer.1, { r with probation := probation, protectedEntities := answer.2 })

def has (r : SegmentedRecencyRegion) (entityId : JsString) : Bool :=
  r.probation.has entityId || r.protectedEntities.has entityId

def victim (r : SegmentedRecencyRegion) : Option JsString :=
  r.probation.victim.or r.protectedEntities.victim

def size (r : SegmentedRecencyRegion) : ℕ := r.probation.size + r.protectedEntities.size

end SegmentedRecencyRegion

def frequencyAgingFactor : ℕ := 10

/-- The ids with how often each was used, and for each count the ids that have it. -/
structure FrequencyRegion where
  agingPeriod : ℕ
  counts : OrderedMap JsString ℕ := .empty
  buckets : OrderedMap ℕ (OrderedSet JsString) := .empty
  lowestCount : ℕ := 0
  highestCount : ℕ := 0
  accesses : ℕ := 0

/-- `Math.max(1, count >> 1)`; the shift is one of 32 bits. -/
def halve (count : ℕ) : ℕ := max 1 ((BitVec.ofNat 32 count).sshiftRight 1).toInt.toNat

/-- Put an id into the bucket of a count. -/
def putInBucket (buckets : OrderedMap ℕ (OrderedSet JsString)) (count : ℕ)
    (entityId : JsString) : OrderedMap ℕ (OrderedSet JsString) :=
  buckets.set count (((buckets.get? count).getD .empty).add entityId)

/-- Take an id out of the bucket of a count, if there is one. -/
def takeFromBucket (buckets : OrderedMap ℕ (OrderedSet JsString)) (count : ℕ)
    (entityId : JsString) : OrderedMap ℕ (OrderedSet JsString) :=
  match buckets.get? count with
  | some bucket => buckets.set count (bucket.delete entityId)
  | none => buckets

namespace FrequencyRegion

/-- The ids of a count; a bucket that is not there is empty. -/
def bucket (r : FrequencyRegion) (count : ℕ) : OrderedSet JsString :=
  (r.buckets.get? count).getD .empty

def moveBucket (r : FrequencyRegion) (entityId : JsString) (old new : ℕ) : FrequencyRegion :=
  let r := { r with buckets := takeFromBucket r.buckets old entityId }
  let left := (r.bucket old).size
  let r := { r with
    counts := r.counts.set entityId new
    buckets := putInBucket r.buckets new entityId
    highestCount := max r.highestCount new }
  if old = r.lowestCount ∧ left = 0 then { r with lowestCount := new } else r

/-- Every count is halved, and the buckets are made anew. -/
def age (r : FrequencyRegion) : FrequencyRegion :=
  let halved := r.counts.mapValues fun _ count => halve count
  { r with
    counts := halved
    buckets := halved.entries.foldl
      (fun buckets entry => putInBucket buckets entry.2 entry.1) .empty
    lowestCount := halved.values.min?.getD 0
    highestCount := halved.values.max?.getD 0
    accesses := 0 }

def afterAccess (r : FrequencyRegion) : FrequencyRegion :=
  let r := { r with accesses := r.accesses + 1 }
  if r.accesses < r.agingPeriod then r else r.age

def touch (r : FrequencyRegion) (entityId : JsString) : FrequencyRegion :=
  match r.counts.get? entityId with
  | none => r
  | some count => (r.moveBucket entityId count (count + 1)).afterAccess

def add (r : FrequencyRegion) (entityId : JsString) : FrequencyRegion :=
  if r.counts.has entityId then r.touch entityId
  else
    { r with
      counts := r.counts.set entityId 1
      buckets := putInBucket r.buckets 1 entityId
      lowestCount := 1
      highestCount := max r.highestCount 1 }.afterAccess

def remove (r : FrequencyRegion) (entityId : JsString) : Bool × FrequencyRegion :=
  match r.counts.get? entityId with
  | none => (false, r)
  | some count =>
    (true, { r with
      counts := r.counts.delete entityId
      buckets := takeFromBucket r.buckets count entityId })

def has (r : FrequencyRegion) (entityId : JsString) : Bool := r.counts.has entityId

/-- The first id of the lowest bucket that holds one, with its count. -/
def scan (r : FrequencyRegion) : Option (JsString × ℕ) :=
  (List.range' r.lowestCount (r.highestCount + 1 - r.lowestCount)).findSome? fun count =>
    (r.bucket count).elems.head?.map fun candidate => (candidate, count)

/-- The scan raises the floor of the next one. Where it finds nobody, any id will do. -/
def victim (r : FrequencyRegion) : Option JsString × FrequencyRegion :=
  if r.counts.size = 0 then (none, r)
  else
    match r.scan with
    | some (candidate, count) => (some candidate, { r with lowestCount := count })
    | none =>
      match r.counts.entries.head? with
      | some (repaired, count) => (some repaired, { r with lowestCount := count })
      | none => (none, r)

def size (r : FrequencyRegion) : ℕ := r.counts.size

end FrequencyRegion

inductive ReplacementRegion where
  | recency (r : RecencyRegion)
  | segmented (r : SegmentedRecencyRegion)
  | frequency (r : FrequencyRegion)

namespace ReplacementRegion

def touch (entityId : JsString) : ReplacementRegion → ReplacementRegion
  | recency r => recency (r.touch entityId)
  | segmented r => segmented (r.touch entityId)
  | frequency r => frequency (r.touch entityId)

def add (entityId : JsString) : ReplacementRegion → ReplacementRegion
  | recency r => recency (r.add entityId)
  | segmented r => segmented (r.add entityId)
  | frequency r => frequency (r.add entityId)

def remove (entityId : JsString) : ReplacementRegion → Bool × ReplacementRegion
  | recency r => ((r.remove entityId).1, recency (r.remove entityId).2)
  | segmented r => ((r.remove entityId).1, segmented (r.remove entityId).2)
  | frequency r => ((r.remove entityId).1, frequency (r.remove entityId).2)

def has (entityId : JsString) : ReplacementRegion → Bool
  | recency r => r.has entityId
  | segmented r => r.has entityId
  | frequency r => r.has entityId

def victim : ReplacementRegion → Option JsString × ReplacementRegion
  | recency r => (r.victim, recency r)
  | segmented r => (r.victim, segmented r)
  | frequency r => (r.victim.1, frequency r.victim.2)

def size : ReplacementRegion → ℕ
  | recency r => r.size
  | segmented r => r.size
  | frequency r => r.size

end ReplacementRegion

inductive EntityReplacementPolicy where
  | leastRecentlyUsed | segmentedLeastRecentlyUsed | leastFrequentlyUsed
  deriving DecidableEq

inductive EntityAdmissionFilter where
  | off | frequencySketch
  deriving DecidableEq

structure PassivationStrategyConfig where
  capacity : ℕ
  replacement : EntityReplacementPolicy := .leastRecentlyUsed
  segmentedProtectedProportion : ℚ := 4 / 5
  admissionWindowProportion : ℚ := 0
  admissionFilter : EntityAdmissionFilter := .off

namespace PassivationStrategyConfig

variable (config : PassivationStrategyConfig)

/-- At least one slot, where there is to be a window, and never the last one. -/
def windowCapacity : ℕ :=
  if 0 < config.admissionWindowProportion then
    min (config.capacity - 1)
      (max 1 ⌊JsNumber.nearest (config.capacity * config.admissionWindowProportion)⌋.toNat)
  else 0

def mainCapacity : ℕ := max 1 (config.capacity - config.windowCapacity)

/-- The protected segment leaves a slot of the main region to the other one. -/
def protectedCapacity : ℕ :=
  min (config.mainCapacity - 1) (max 1
    ⌊JsNumber.nearest (config.mainCapacity * config.segmentedProtectedProportion) + 1 / 2⌋.toNat)

def buildMainRegion : ReplacementRegion :=
  match config.replacement with
  | .segmentedLeastRecentlyUsed => .segmented { protectedCapacity := config.protectedCapacity }
  | .leastFrequentlyUsed =>
    .frequency { agingPeriod := max 1 (config.capacity * frequencyAgingFactor) }
  | .leastRecentlyUsed => .recency {}

end PassivationStrategyConfig

structure CompositePassivationStrategy where
  window : Option RecencyRegion
  windowCapacity : ℕ
  main : ReplacementRegion
  mainCapacity : ℕ
  sketch : Option FrequencySketch

namespace CompositePassivationStrategy

def ofConfig (config : PassivationStrategyConfig) : CompositePassivationStrategy where
  window := if 0 < config.windowCapacity then some {} else none
  windowCapacity := config.windowCapacity
  main := config.buildMainRegion
  mainCapacity := config.mainCapacity
  sketch :=
    if config.admissionFilter = .frequencySketch ∧ 0 < config.windowCapacity then
      some (.ofCapacity config.capacity)
    else none

def windowHas (s : CompositePassivationStrategy) (entityId : JsString) : Bool :=
  match s.window with
  | some window => window.has entityId
  | none => false

def has (s : CompositePassivationStrategy) (entityId : JsString) : Bool :=
  s.windowHas entityId || s.main.has entityId

def size (s : CompositePassivationStrategy) : ℕ :=
  (match s.window with
    | some window => window.size
    | none => 0) + s.main.size

def record (s : CompositePassivationStrategy) (entityId : JsString) :
    CompositePassivationStrategy :=
  { s with sketch := s.sketch.map (·.record entityId) }

def touch (s : CompositePassivationStrategy) (entityId : JsString) :
    CompositePassivationStrategy :=
  let s := s.record entityId
  if s.windowHas entityId then { s with window := s.window.map (·.touch entityId) }
  else { s with main := s.main.touch entityId }

/-- The filter rules against a candidate that was used no more often than the incumbent. -/
def refuses (s : CompositePassivationStrategy) (candidate victim : JsString)
    (fromWindow : Bool) : Bool :=
  match s.sketch with
  | some sketch => fromWindow && decide (sketch.estimate candidate ≤ sketch.estimate victim)
  | none => false

/-- Move a candidate into the main region. Whom this evicts is the incumbent's victim, or the
candidate itself. -/
def promote (s : CompositePassivationStrategy) (candidate : JsString) (fromWindow : Bool) :
    Option JsString × CompositePassivationStrategy :=
  if s.main.size < s.mainCapacity then (none, { s with main := s.main.add candidate })
  else
    match s.main.victim with
    | (none, main) => (none, { s with main := main.add candidate })
    | (some victim, main) =>
      if s.refuses candidate victim fromWindow then (some candidate, { s with main := main })
      else (some victim, { s with main := (main.remove victim).2.add candidate })

/-- `admit`: make room for an id and take it in. Whom this evicts is the answer. -/
def admitEntity (s : CompositePassivationStrategy) (entityId : JsString) :
    Option JsString × CompositePassivationStrategy :=
  if s.has entityId then (none, s.touch entityId)
  else
    let s := s.record entityId
    match s.window with
    | none => s.promote entityId false
    | some window =>
      let window := window.add entityId
      if window.size ≤ s.windowCapacity then (none, { s with window := some window })
      else
        match window.victim with
        | none => (none, { s with window := some window })
        | some candidate =>
          { s with window := some (window.remove candidate).2 }.promote candidate true

def remove (s : CompositePassivationStrategy) (entityId : JsString) :
    Bool × CompositePassivationStrategy :=
  match s.window.map (·.remove entityId) with
  | some (true, window) => (true, { s with window := some window })
  | some (false, window) =>
    let answer := s.main.remove entityId
    (answer.1, { s with window := some window, main := answer.2 })
  | none =>
    let answer := s.main.remove entityId
    (answer.1, { s with main := answer.2 })

end CompositePassivationStrategy

/-- No cap, no strategy. -/
def createPassivationStrategy (config : PassivationStrategyConfig) :
    Option CompositePassivationStrategy :=
  if config.capacity = 0 then none else some (.ofConfig config)

end ActorTs.Cluster.Sharding
