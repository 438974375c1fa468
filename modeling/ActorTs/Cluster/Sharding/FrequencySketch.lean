import ActorTs.Library.JsString

/-!
# A sketch of frequencies

A count-min sketch of how often entity ids have been touched. Each access raises one counter
in each of four rows, and the estimate of an id is the least of its four. After a number of
accesses every counter is halved, so that the estimate is of recent accesses.
-/

namespace ActorTs.Cluster.Sharding

def sketchRows : ℕ := 4

def sketchMaxCount : ℕ := 15

def sketchSampleFactor : ℕ := 10

def sketchMinimumWidth : ℕ := 64

/-- One odd constant for each row. -/
def sketchSeeds : List UInt32 := [0x7f4a7c15, 0x9e3779b9, 0xc2b2ae35, 0x27d4eb2f]

/-- FNV-1a over the code units of an id. -/
def baseHash (entityId : JsString) : UInt32 :=
  entityId.foldl (fun hash code => (hash ^^^ code.toUInt32) * 0x01000193) 0x811c9dc5

/-- Double a width until it is as large as a value; each round adds one at least. -/
def widen (value : ℕ) : ℕ → ℕ → ℕ
  | 0, width => width
  | rounds + 1, width => if width < value then widen value rounds (width * 2) else width

def nextPowerOfTwo (value : ℕ) : ℕ := widen value value sketchMinimumWidth

structure FrequencySketch where
  table : List ℕ
  mask : ℕ
  /-- The accesses after which every counter is halved. -/
  sampleSize : ℕ
  accesses : ℕ := 0

namespace FrequencySketch

def ofCapacity (capacity : ℕ) : FrequencySketch where
  table := List.replicate (nextPowerOfTwo capacity * sketchRows) 0
  mask := nextPowerOfTwo capacity - 1
  sampleSize := max 1 (capacity * sketchSampleFactor)

def cellFor (s : FrequencySketch) (hash : UInt32) (row : ℕ) : ℕ :=
  let mixed := (hash ^^^ sketchSeeds.getD row 0) * 0x2545f491
  row * (s.mask + 1) + ((mixed ^^^ (mixed >>> 15)).toNat &&& s.mask)

/-- Halve every counter. -/
def age (s : FrequencySketch) : FrequencySketch :=
  { s with table := s.table.map fun count => count >>> 1, accesses := 0 }

/-- Count one access. -/
def record (s : FrequencySketch) (entityId : JsString) : FrequencySketch :=
  let raised := (List.range sketchRows).foldl (fun table row =>
    table.modify (s.cellFor (baseHash entityId) row) fun count =>
      if count < sketchMaxCount then count + 1 else count) s.table
  let s := { s with table := raised, accesses := s.accesses + 1 }
  if s.sampleSize ≤ s.accesses then s.age else s

/-- The estimated number of accesses. -/
def estimate (s : FrequencySketch) (entityId : JsString) : ℕ :=
  (List.range sketchRows).foldl (fun smallest row =>
    min smallest (s.table.getD (s.cellFor (baseHash entityId) row) smallest)) sketchMaxCount

end FrequencySketch

end ActorTs.Cluster.Sharding
