import ActorTs.Serialization.JsonTree

/-!
# Frames on the wire

A frame is the length of its payload in four bytes and the payload, which is the tagged JSON of one
message. `FrameDecoder` collects the bytes of a connection in a slab between two cursors and takes
the frames off the front. That the cursors stay in order and inside the slab is part of the
structure.
-/

namespace ActorTs.Cluster

open Serialization

def headerSize : ℕ := 4

def initialFrameBufferBytes : ℕ := 8 * 1024

def retainedFrameBufferBytes : ℕ := 64 * 1024

def defaultMaxFrameBytes : ℕ := 16 * 1024 * 1024

/-- `DataView.setUint32`, the most significant byte first. -/
def uint32Bytes (n : ℕ) : Bytes :=
  [UInt8.ofNat (n / 2 ^ 24 % 256), UInt8.ofNat (n / 2 ^ 16 % 256), UInt8.ofNat (n / 2 ^ 8 % 256),
    UInt8.ofNat (n % 256)]

/-- `DataView.getUint32` at the front of some bytes. -/
def getUint32 : Bytes → ℕ
  | a :: b :: c :: d :: _ => a.toNat * 2 ^ 24 + b.toNat * 2 ^ 16 + c.toNat * 2 ^ 8 + d.toNat
  | _ => 0

def encodeFrame (runtime : Runtime) (message : Value) : Except SerializationError Bytes := do
  let t ← encodeJsonTree runtime .omit message
  let payload := Utf8.encode t.stringify
  return uint32Bytes payload.length ++ payload

structure FrameError where
  message : JsString
  deriving DecidableEq

structure FrameDecoder where
  slab : Bytes
  readOffset : ℕ
  writeOffset : ℕ
  maxFrameBytes : ℕ
  readConstraints : ReadConstraints
  maxFrameBytes_pos : 1 ≤ maxFrameBytes
  readOffset_le : readOffset ≤ writeOffset
  writeOffset_le : writeOffset ≤ slab.length

/-- Copy some bytes over those from an offset on. -/
def setBytes (slab source : Bytes) (offset : ℕ) : Bytes :=
  slab.take offset ++ source ++ slab.drop (offset + source.length)

/-- `Uint8Array.prototype.copyWithin` to the front. -/
def copyWithin (slab : Bytes) (start stop : ℕ) : Bytes :=
  setBytes slab ((slab.take stop).drop start) 0

/-- Move what stands between two offsets into a fresh buffer. -/
def replaceSlab (slab : Bytes) (start stop capacity : ℕ) : Bytes :=
  setBytes (List.replicate capacity 0) ((slab.take stop).drop start) 0

/-- Double a capacity until it is enough. -/
def growCapacity (capacity needed : ℕ) : ℕ :=
  if 0 < capacity ∧ capacity < needed then growCapacity (2 * capacity) needed else capacity
termination_by needed - capacity

namespace FrameDecoder

def new (maxFrameBytes : ℕ) (readConstraints : ReadConstraints) (h : 1 ≤ maxFrameBytes) :
    FrameDecoder :=
  ⟨[], 0, 0, maxFrameBytes, readConstraints, h, le_rfl, Nat.zero_le _⟩

/-- The decoder that is built without arguments. -/
def standard : FrameDecoder := new defaultMaxFrameBytes {} (by decide)

def pendingBytes (d : FrameDecoder) : ℕ := d.writeOffset - d.readOffset

lemma length_setBytes_zero {slab source : Bytes} (h : source.length ≤ slab.length) :
    (setBytes slab source 0).length = slab.length := by
  simp [setBytes]
  omega

/-- The bytes received and not yet decoded. -/
def pending (d : FrameDecoder) : Bytes := (d.slab.take d.writeOffset).drop d.readOffset

variable (d : FrameDecoder)

lemma length_pending : d.pending.length = d.pendingBytes := by
  have hle := d.writeOffset_le
  simp [pending, pendingBytes]
  omega

lemma pendingBytes_le : d.pendingBytes ≤ d.slab.length :=
  (Nat.sub_le _ _).trans d.writeOffset_le

lemma length_copyWithin : (copyWithin d.slab d.readOffset d.writeOffset).length = d.slab.length :=
  length_setBytes_zero (d.length_pending.trans_le d.pendingBytes_le)

lemma length_replaceSlab {capacity : ℕ} (h : d.pendingBytes ≤ capacity) :
    (replaceSlab d.slab d.readOffset d.writeOffset capacity).length = capacity := by
  rw [replaceSlab, length_setBytes_zero, List.length_replicate]
  rw [List.length_replicate]
  exact d.length_pending.trans_le h

/-- The pending bytes moved to the front of a slab that holds them. -/
def moveTo (d : FrameDecoder) (slab : Bytes) (h : d.pendingBytes ≤ slab.length) : FrameDecoder :=
  { d with slab := slab, readOffset := 0, writeOffset := d.pendingBytes
           readOffset_le := Nat.zero_le _, writeOffset_le := h }

/-- The capacity of a slab that is too small for what has to fit. -/
def grownCapacity (d : FrameDecoder) (needed : ℕ) : ℕ :=
  let capacity := growCapacity (max d.slab.length initialFrameBufferBytes) needed
  min capacity (max needed (headerSize + d.maxFrameBytes))

lemma le_growCapacity {capacity needed : ℕ} (h : 0 < capacity) :
    needed ≤ growCapacity capacity needed := by
  fun_induction growCapacity capacity needed with
  | case1 capacity hgrow ih => exact ih (by omega)
  | case2 capacity hgrow => omega

lemma le_grownCapacity (needed : ℕ) : needed ≤ d.grownCapacity needed := by
  have hpos : 0 < max d.slab.length initialFrameBufferBytes := lt_max_of_lt_right (by decide)
  exact le_min (le_growCapacity hpos) (le_max_left _ _)

lemma pendingBytes_le_grownCapacity (extra : ℕ) :
    d.pendingBytes ≤ d.grownCapacity (d.pendingBytes + extra) :=
  (Nat.le_add_right _ _).trans (d.le_grownCapacity _)

def makeRoomFor (d : FrameDecoder) (extra : ℕ) : FrameDecoder :=
  if d.writeOffset + extra ≤ d.slab.length then d
  else if d.pendingBytes + extra ≤ d.slab.length then
    -- The slab is big enough; the free space is at the wrong end.
    d.moveTo (copyWithin d.slab d.readOffset d.writeOffset)
      (d.pendingBytes_le.trans_eq d.length_copyWithin.symm)
  else
    let capacity := d.grownCapacity (d.pendingBytes + extra)
    d.moveTo (replaceSlab d.slab d.readOffset d.writeOffset capacity)
      ((d.pendingBytes_le_grownCapacity extra).trans_eq
        (d.length_replaceSlab (d.pendingBytes_le_grownCapacity extra)).symm)

def append (d : FrameDecoder) (chunk : Bytes) : FrameDecoder :=
  if chunk.length = 0 then d
  else
    let d := d.makeRoomFor chunk.length
    { d with
      slab := setBytes d.slab chunk d.writeOffset
      writeOffset := d.writeOffset + chunk.length
      readOffset_le := d.readOffset_le.trans (Nat.le_add_right _ _)
      writeOffset_le := by
        have hle := d.writeOffset_le
        simp [setBytes]
        omega }

/-- Hand a large slab back once it has drained. -/
def reclaim (d : FrameDecoder) : FrameDecoder :=
  if d.readOffset ≠ d.writeOffset then d
  else
    let slab := if retainedFrameBufferBytes < d.slab.length then [] else d.slab
    { d with slab := slab, readOffset := 0, writeOffset := 0
             readOffset_le := le_rfl, writeOffset_le := Nat.zero_le _ }

/-- The length that the header at the read cursor claims. -/
def claimedLength (d : FrameDecoder) : ℕ := getUint32 (d.slab.drop d.readOffset)

/-- The payload behind the header. -/
def payload (d : FrameDecoder) : Bytes :=
  (d.slab.drop (d.readOffset + headerSize)).take d.claimedLength

/-- The decoder behind the frame at its read cursor. -/
def skipFrame (d : FrameDecoder) (h : ¬ d.pendingBytes < headerSize + d.claimedLength) :
    FrameDecoder :=
  { d with
    readOffset := d.readOffset + headerSize + d.claimedLength
    readOffset_le := by
      have hle := d.readOffset_le
      rw [pendingBytes] at h
      omega }

/-- The message of a payload. What the runtime says about text that is no JSON is
left out of the error. -/
def decodePayload (runtime : Runtime) (maxNestingDepth : ℕ) (payload : Bytes) :
    Except FrameError Value :=
  match Json.parse (Utf8.decode payload) with
  | none => .error ⟨"Invalid wire frame JSON: "⟩
  | some t =>
    match decodeJsonTree runtime maxNestingDepth t with
    | .error e => .error ⟨"Invalid wire frame payload: " ++ e.message⟩
    | .ok message => .ok message

def checkLength (maxFrameBytes maxDocumentBytes length : ℕ) : Except FrameError Unit :=
  if maxFrameBytes < length then
    .error ⟨"wire frame claims length " ++ JsonText.decimal length ++
      " > maxFrameBytes " ++ JsonText.decimal maxFrameBytes ++
      " — connection terminated to prevent OOM/DoS"⟩
  else if 0 < maxDocumentBytes ∧ maxDocumentBytes < length then
    .error ⟨"wire frame of " ++ JsonText.decimal length ++
      " bytes exceeds maxDocumentBytes " ++ JsonText.decimal maxDocumentBytes ++
      " — connection terminated before the document is buffered"⟩
  else .ok ()

/-- Take the frames that are complete off the front. -/
def takeFrames (runtime : Runtime) (d : FrameDecoder) :
    Except FrameError (FrameDecoder × List Value) :=
  if d.pendingBytes < headerSize then .ok (d, [])
  else
    match checkLength d.maxFrameBytes d.readConstraints.maxDocumentBytes d.claimedLength with
    | .error e => .error e
    | .ok () =>
      if h : d.pendingBytes < headerSize + d.claimedLength then .ok (d, [])
      else
        match decodePayload runtime d.readConstraints.maxNestingDepth d.payload with
        | .error e => .error e
        | .ok message => do
            let (d', messages) ← takeFrames runtime (d.skipFrame h)
            return (d', message :: messages)
termination_by d.pendingBytes
decreasing_by
  simp only [pendingBytes, skipFrame, headerSize] at h ⊢
  omega

def push (runtime : Runtime) (d : FrameDecoder) (chunk : Bytes) :
    Except FrameError (FrameDecoder × List Value) := do
  let (d, messages) ← takeFrames runtime (d.append chunk)
  return (d.reclaim, messages)

end FrameDecoder

end ActorTs.Cluster
