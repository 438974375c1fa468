import ActorTs.Cluster.Protocol
import ActorTs.Serialization.JsonTreeText

/-!
# Reassembly of frames

`drain` takes the frames off the front of a plain list of bytes. `push_refines` says that the
decoder does just that to the bytes it holds and the chunk it is handed. What remains is an argument
about lists: cut the frames of some messages anywhere, and each message appears at the push whose
chunk completes its frame.
-/

open List Nat

namespace ActorTs.Cluster

open Serialization Outcome FrameDecoder

/-! ### The bytes of a connection -/

/-- Take the complete frames off the front of some bytes. -/
def drain (runtime : Runtime) (maxFrameBytes : ℕ) (readConstraints : ReadConstraints)
    (bytes : Bytes) : Except FrameError (Bytes × List Value) :=
  if bytes.length < headerSize then .ok (bytes, [])
  else
    match FrameDecoder.checkLength maxFrameBytes readConstraints.maxDocumentBytes
        (getUint32 bytes) with
    | .error e => .error e
    | .ok () =>
      if bytes.length < headerSize + getUint32 bytes then .ok (bytes, [])
      else
        match FrameDecoder.decodePayload runtime readConstraints.maxNestingDepth
            ((bytes.drop headerSize).take (getUint32 bytes)) with
        | .error e => .error e
        | .ok message => do
            let (rest, messages) ← drain runtime maxFrameBytes readConstraints
              (bytes.drop (headerSize + getUint32 bytes))
            return (rest, message :: messages)
termination_by bytes.length
decreasing_by
  simp only [length_drop, headerSize] at *
  omega

namespace FrameDecoder

variable (d : FrameDecoder)

lemma pending_eq : d.pending = (d.slab.drop d.readOffset).take d.pendingBytes := by
  rw [pending, drop_take, pendingBytes]

/-! ### The slab is invisible -/

lemma take_setBytes {slab source : Bytes} {offset : ℕ} (h : offset ≤ slab.length) :
    (setBytes slab source offset).take (offset + source.length) = slab.take offset ++ source := by
  rw [setBytes, take_append_of_le_length (by simp [h]), take_of_length_le (by simp [h])]

lemma pending_moveTo {slab : Bytes} (h : d.pendingBytes ≤ slab.length)
    (hslab : slab.take d.pendingBytes = d.pending) : (d.moveTo slab h).pending = d.pending := by
  rw [pending, moveTo, hslab, drop_zero]

lemma take_copyWithin :
    (copyWithin d.slab d.readOffset d.writeOffset).take d.pendingBytes = d.pending := by
  have htake := @take_setBytes d.slab d.pending 0 (zero_le _)
  rw [zero_add, length_pending] at htake
  exact htake

lemma take_replaceSlab (capacity : ℕ) :
    (replaceSlab d.slab d.readOffset d.writeOffset capacity).take d.pendingBytes = d.pending := by
  have htake := @take_setBytes (List.replicate capacity 0) d.pending 0 (zero_le _)
  rw [zero_add, length_pending] at htake
  exact htake

lemma makeRoomFor_spec (extra : ℕ) :
    (d.makeRoomFor extra).pending = d.pending ∧
      (d.makeRoomFor extra).maxFrameBytes = d.maxFrameBytes ∧
      (d.makeRoomFor extra).readConstraints = d.readConstraints := by
  unfold makeRoomFor
  split
  · exact ⟨rfl, rfl, rfl⟩
  · split
    · exact ⟨d.pending_moveTo _ d.take_copyWithin, rfl, rfl⟩
    · exact ⟨d.pending_moveTo _ (d.take_replaceSlab _), rfl, rfl⟩

lemma append_spec (chunk : Bytes) :
    (d.append chunk).pending = d.pending ++ chunk ∧
      (d.append chunk).maxFrameBytes = d.maxFrameBytes ∧
      (d.append chunk).readConstraints = d.readConstraints := by
  unfold append
  split
  · next h =>
    rw [length_eq_zero_iff] at h
    rw [h, append_nil]
    exact ⟨rfl, rfl, rfl⟩
  · obtain ⟨hpending, hmax, hconstraints⟩ := d.makeRoomFor_spec chunk.length
    refine ⟨?_, hmax, hconstraints⟩
    rw [← hpending]
    simp only [pending]
    rw [take_setBytes (d.makeRoomFor chunk.length).writeOffset_le, drop_append_of_le_length]
    simpa [(d.makeRoomFor chunk.length).writeOffset_le] using
      (d.makeRoomFor chunk.length).readOffset_le

lemma reclaim_spec : d.reclaim.pending = d.pending ∧ d.reclaim.maxFrameBytes = d.maxFrameBytes ∧
      d.reclaim.readConstraints = d.readConstraints := by
  unfold reclaim
  split
  · exact ⟨rfl, rfl, rfl⟩
  · next h =>
    rw [not_not] at h
    have hnil : d.pending = [] := by
      rw [← length_eq_zero_iff, length_pending, pendingBytes, h, Nat.sub_self]
    simpa [pending] using hnil

lemma getUint32_take {bytes : Bytes} {n : ℕ} (h : headerSize ≤ n) :
    getUint32 (bytes.take n) = getUint32 bytes := by
  obtain ⟨k, rfl⟩ := Nat.exists_eq_add_of_le' h
  match bytes with
  | [] => rfl
  | [_] => rfl
  | [_, _] => rfl
  | [_, _, _] => rfl
  | _ :: _ :: _ :: _ :: _ => rfl

variable {d : FrameDecoder}

lemma claimedLength_eq (h : headerSize ≤ d.pendingBytes) :
    d.claimedLength = getUint32 d.pending := by
  rw [pending_eq, getUint32_take h, claimedLength]

lemma payload_eq (h : headerSize + d.claimedLength ≤ d.pendingBytes) :
    d.payload = (d.pending.drop headerSize).take d.claimedLength := by
  rw [pending_eq, payload, drop_take, drop_drop, take_take, min_eq_left (by omega)]

lemma pending_skipFrame (h : ¬ d.pendingBytes < headerSize + d.claimedLength) :
    (d.skipFrame h).pending = d.pending.drop (headerSize + d.claimedLength) := by
  simp only [pending, skipFrame, drop_drop, add_assoc]

lemma takeFrames_refines (runtime : Runtime) (d : FrameDecoder) :
    (takeFrames runtime d).map (fun p => (p.1.pending, p.2)) =
      drain runtime d.maxFrameBytes d.readConstraints d.pending := by
  induction hn : d.pendingBytes using Nat.strong_induction_on generalizing d with
  | _ n ih =>
    subst hn
    rw [takeFrames, drain, length_pending]
    by_cases hheader : d.pendingBytes < headerSize
    · rw [if_pos hheader, if_pos hheader]
      rfl
    · rw [if_neg hheader, if_neg hheader, ← claimedLength_eq (not_lt.1 hheader)]
      cases hcheck : checkLength d.maxFrameBytes d.readConstraints.maxDocumentBytes
          d.claimedLength with
      | error e => rfl
      | ok u =>
        by_cases hframe : d.pendingBytes < headerSize + d.claimedLength
        · simp only [if_pos hframe, dif_pos hframe]
          rfl
        · simp only [if_neg hframe, dif_neg hframe, ← payload_eq (not_lt.1 hframe)]
          cases hpayload : decodePayload runtime d.readConstraints.maxNestingDepth d.payload with
          | error e => rfl
          | ok message =>
            have hless : (d.skipFrame hframe).pendingBytes < d.pendingBytes := by
              simp only [pendingBytes, skipFrame, headerSize] at hframe ⊢
              omega
            have hrest := ih _ hless (d.skipFrame hframe) rfl
            rw [pending_skipFrame] at hrest
            change _ = drain runtime d.maxFrameBytes d.readConstraints _ at hrest
            simp only [← hrest]
            cases takeFrames runtime (d.skipFrame hframe) <;> rfl

lemma takeFrames_config {runtime : Runtime} {d d' : FrameDecoder} {messages : List Value}
    (h : takeFrames runtime d = .ok (d', messages)) :
    d'.maxFrameBytes = d.maxFrameBytes ∧ d'.readConstraints = d.readConstraints := by
  induction hn : d.pendingBytes using Nat.strong_induction_on generalizing d messages with
  | _ n ih =>
    subst hn
    rw [takeFrames] at h
    split at h
    · cases h
      exact ⟨rfl, rfl⟩
    · split at h
      · cases h
      · split at h
        · cases h
          exact ⟨rfl, rfl⟩
        · next hframe =>
          split at h
          · cases h
          · obtain ⟨p, hp, h⟩ := bind_eq_ok h
            cases h
            have hless : (d.skipFrame hframe).pendingBytes < d.pendingBytes := by
              simp only [pendingBytes, skipFrame, headerSize] at hframe ⊢
              omega
            have hrest := ih _ hless hp rfl
            exact hrest

/-- A push does to the bytes that are pending, and to nothing else, what `drain`
does to the bytes and the chunk. -/
lemma push_refines (runtime : Runtime) (d : FrameDecoder) (chunk : Bytes) :
    (push runtime d chunk).map (fun p => (p.1.pending, p.2)) =
      drain runtime d.maxFrameBytes d.readConstraints (d.pending ++ chunk) := by
  obtain ⟨hpending, hmax, hconstraints⟩ := d.append_spec chunk
  have hframes := takeFrames_refines runtime (d.append chunk)
  rw [hpending, hmax, hconstraints] at hframes
  rw [← hframes, push]
  cases takeFrames runtime (d.append chunk) with
  | error e => rfl
  | ok p => exact congrArg (fun b => Except.ok (b, p.2)) p.1.reclaim_spec.1

lemma push_config {runtime : Runtime} {d d' : FrameDecoder} {chunk : Bytes}
    {messages : List Value} (h : push runtime d chunk = .ok (d', messages)) :
    d'.maxFrameBytes = d.maxFrameBytes ∧ d'.readConstraints = d.readConstraints := by
  obtain ⟨-, hmax, hconstraints⟩ := d.append_spec chunk
  obtain ⟨p, hp, h⟩ := bind_eq_ok h
  cases h
  obtain ⟨-, hmax', hconstraints'⟩ := p.1.reclaim_spec
  obtain ⟨hmax'', hconstraints''⟩ := takeFrames_config hp
  exact ⟨by rw [hmax', hmax'', hmax], by rw [hconstraints', hconstraints'', hconstraints]⟩

end FrameDecoder

/-! ### A run of pushes -/

/-- What each push returns, and the bytes that are pending behind it. -/
def observe (runtime : Runtime) :
    FrameDecoder → List Bytes → Except FrameError (List (List Value × ℕ))
  | _, [] => .ok []
  | d, chunk :: chunks => do
      let (d, messages) ← d.push runtime chunk
      let rest ← observe runtime d chunks
      return (messages, d.pendingBytes) :: rest

section Bytes

variable (runtime : Runtime) (maxFrameBytes : ℕ) (readConstraints : ReadConstraints)

/-- The same of the plain bytes of the connection. -/
def observeBytes : Bytes → List Bytes → Except FrameError (List (List Value × ℕ))
  | _, [] => .ok []
  | pending, chunk :: chunks => do
      let (pending, messages) ← drain runtime maxFrameBytes readConstraints (pending ++ chunk)
      let rest ← observeBytes pending chunks
      return (messages, pending.length) :: rest

lemma observe_eq_observeBytes (d : FrameDecoder) (chunks : List Bytes) :
    observe runtime d chunks =
      observeBytes runtime d.maxFrameBytes d.readConstraints d.pending chunks := by
  induction chunks generalizing d with
  | nil => rfl
  | cons chunk chunks ih =>
    have hpush := d.push_refines runtime chunk
    rw [observe, observeBytes, ← hpush]
    cases hd : d.push runtime chunk with
    | error e => rfl
    | ok p =>
      obtain ⟨hmax, hconstraints⟩ := push_config hd
      change (do let rest ← observe runtime p.1 chunks; pure ((p.2, p.1.pendingBytes) :: rest)) =
        (do
          let rest ← observeBytes runtime d.maxFrameBytes d.readConstraints p.1.pending chunks
          pure ((p.2, p.1.pending.length) :: rest))
      rw [ih, hmax, hconstraints, length_pending]

/-! ### Frames in the bytes -/

lemma length_uint32Bytes (n : ℕ) : (uint32Bytes n).length = headerSize := rfl

lemma getUint32_uint32Bytes (n : ℕ) (rest : Bytes) :
    getUint32 (uint32Bytes n ++ rest) = n % 2 ^ 32 := by
  have hbyte : ∀ m, (UInt8.ofNat (m % 256)).toNat = m % 256 := fun m =>
    Utf8.toNat_byte (mod_lt _ (by norm_num))
  simp only [uint32Bytes, cons_append, getUint32, hbyte]
  omega

lemma drain_short {bytes : Bytes} (h : bytes.length < headerSize) :
    drain runtime maxFrameBytes readConstraints bytes = .ok (bytes, []) := by
  rw [drain, if_pos h]

lemma drain_incomplete {bytes : Bytes}
    (hcheck : checkLength maxFrameBytes readConstraints.maxDocumentBytes (getUint32 bytes) = .ok ())
    (h : bytes.length < headerSize + getUint32 bytes) :
    drain runtime maxFrameBytes readConstraints bytes = .ok (bytes, []) := by
  rw [drain]
  split
  · rfl
  · rw [hcheck]

lemma drain_frame {n : ℕ} {payload : Bytes} (hpayload : payload.length = n % 2 ^ 32)
    (rest : Bytes) :
    drain runtime maxFrameBytes readConstraints (uint32Bytes n ++ payload ++ rest) =
      match checkLength maxFrameBytes readConstraints.maxDocumentBytes (n % 2 ^ 32) with
      | .error e => .error e
      | .ok () =>
        match decodePayload runtime readConstraints.maxNestingDepth payload with
        | .error e => .error e
        | .ok message => do
            let (rest, messages) ← drain runtime maxFrameBytes readConstraints rest
            return (rest, message :: messages) := by
  have hlength : (uint32Bytes n ++ payload).length = headerSize + n % 2 ^ 32 := by
    rw [length_append, length_uint32Bytes, hpayload]
  have hclaim : getUint32 (uint32Bytes n ++ payload ++ rest) = n % 2 ^ 32 := by
    rw [append_assoc, getUint32_uint32Bytes]
  have hdrop : (uint32Bytes n ++ payload ++ rest).drop (headerSize + n % 2 ^ 32) = rest := by
    rw [← hlength, drop_left]
  have htake : ((uint32Bytes n ++ payload ++ rest).drop headerSize).take (n % 2 ^ 32) = payload := by
    rw [append_assoc, ← length_uint32Bytes n, drop_left, ← hpayload, take_left]
  rw [drain, hclaim, if_neg (by rw [length_append, hlength]; omega), hdrop, htake]
  cases checkLength maxFrameBytes readConstraints.maxDocumentBytes (n % 2 ^ 32) with
  | error e => rfl
  | ok u => exact if_neg (by rw [length_append, hlength]; omega)

/-- The bytes are a frame that is read as the message. -/
structure Carries (frame : Bytes) (message : Value) : Prop where
  payload : ∃ payload : Bytes, frame = uint32Bytes payload.length ++ payload ∧
    payload.length < 2 ^ 32 ∧
    FrameDecoder.checkLength maxFrameBytes readConstraints.maxDocumentBytes payload.length = .ok () ∧
    FrameDecoder.decodePayload runtime readConstraints.maxNestingDepth payload = .ok message

variable {runtime maxFrameBytes readConstraints} {message : Value} {frame : Bytes}

lemma drain_carries (h : Carries runtime maxFrameBytes readConstraints frame message)
    (rest : Bytes) :
    drain runtime maxFrameBytes readConstraints (frame ++ rest) = (do
      let (rest, messages) ← drain runtime maxFrameBytes readConstraints rest
      return (rest, message :: messages)) := by
  obtain ⟨payload, rfl, hlt, hcheck, hdecode⟩ := h.payload
  have hmod := mod_eq_of_lt hlt
  rw [drain_frame runtime maxFrameBytes readConstraints hmod.symm, hmod, hcheck]
  simp only [hdecode]

lemma drain_part (h : Carries runtime maxFrameBytes readConstraints frame message) {bytes : Bytes}
    (hbytes : bytes <+: frame) (hlt : bytes.length < frame.length) :
    drain runtime maxFrameBytes readConstraints bytes = .ok (bytes, []) := by
  obtain ⟨payload, rfl, hsize, hcheck, -⟩ := h.payload
  by_cases hheader : bytes.length < headerSize
  · exact drain_short runtime maxFrameBytes readConstraints hheader
  · have hclaim : getUint32 bytes = payload.length := by
      rw [prefix_iff_eq_take] at hbytes
      rw [hbytes, getUint32_take (not_lt.1 hheader), getUint32_uint32Bytes, mod_eq_of_lt hsize]
    rw [length_append, length_uint32Bytes] at hlt
    exact drain_incomplete runtime maxFrameBytes readConstraints (hclaim.symm ▸ hcheck)
      (hclaim.symm ▸ hlt)

/-- How many of some frames, by their lengths, are complete in so many bytes. -/
def completed : List ℕ → ℕ → ℕ
  | [], _ => 0
  | length :: lengths, n => if length ≤ n then completed lengths (n - length) + 1 else 0

/-- The frames on their way: each by its bytes and the message it is read as. -/
abbrev Queue := List (Bytes × Value)

def Queue.bytes (queue : Queue) : Bytes := (queue.map Prod.fst).flatten

def Queue.lengths (queue : Queue) : List ℕ := queue.map fun f => f.1.length

lemma Queue.bytes_cons (f : Bytes × Value) (queue : Queue) :
    Queue.bytes (f :: queue) = f.1 ++ Queue.bytes queue := rfl

/-- The complete frames at the front of the bytes are taken and the rest waits. -/
lemma drain_queue {queue : Queue}
    (h : ∀ f ∈ queue, Carries runtime maxFrameBytes readConstraints f.1 f.2) {bytes : Bytes}
    (hbytes : bytes <+: queue.bytes) :
    let k := completed queue.lengths bytes.length
    drain runtime maxFrameBytes readConstraints bytes =
      .ok (bytes.drop (Queue.bytes (queue.take k)).length, (queue.take k).map Prod.snd) := by
  induction queue generalizing bytes with
  | nil =>
    have hnil : bytes = [] := prefix_nil.1 hbytes
    subst hnil
    exact drain_short runtime maxFrameBytes readConstraints (by decide)
  | cons f queue ih =>
    rw [forall_mem_cons] at h
    rw [Queue.bytes_cons] at hbytes
    simp only [Queue.lengths, map_cons, completed]
    by_cases hcomplete : f.1.length ≤ bytes.length
    · obtain ⟨rest, rfl⟩ := prefix_of_prefix_length_le (prefix_append f.1 _) hbytes hcomplete
      rw [prefix_append_right_inj] at hbytes
      have hrest := ih h.2 hbytes
      have hdrop : ∀ n, (f.1 ++ rest).drop (f.1.length + n) = rest.drop n := by
        intro n
        rw [← drop_drop, drop_left]
      rw [drain_carries h.1, hrest]
      simp only [length_append, Nat.add_sub_cancel_left, if_pos (Nat.le_add_right _ _),
        take_succ_cons, map_cons, Queue.bytes_cons, hdrop]
      rfl
    · rw [if_neg hcomplete]
      have hpart : bytes <+: f.1 := prefix_of_prefix_length_le hbytes
        (prefix_append f.1 _) (by omega)
      rw [drain_part h.1 hpart (by omega)]
      rfl

variable (queue : Queue)

lemma Queue.bytes_take_append_drop (k : ℕ) :
    Queue.bytes (queue.take k) ++ Queue.bytes (queue.drop k) = queue.bytes := by
  rw [Queue.bytes, Queue.bytes, ← flatten_append, ← map_append, take_append_drop, Queue.bytes]

lemma Queue.length_bytes : queue.bytes.length = queue.lengths.sum := by
  rw [Queue.bytes, Queue.lengths, length_flatten, map_map]
  rfl

lemma length_completed_le (n : ℕ) :
    (Queue.bytes (queue.take (completed queue.lengths n))).length ≤ n := by
  induction queue generalizing n with
  | nil => exact zero_le _
  | cons f queue ih =>
    simp only [Queue.lengths, map_cons, completed]
    split
    · next h =>
      rw [take_succ_cons, Queue.bytes_cons, length_append]
      have hrest := ih (n - f.1.length)
      rw [Queue.lengths] at hrest
      omega
    · exact zero_le _

/-- What the pushes return when the frames of the queue, by their lengths and their
messages, are cut into chunks: each push returns the messages whose frames are
complete with its chunk, and what is pending behind it is the bytes that belong to
no frame returned so far. -/
def expected (queue : List (ℕ × Value)) (pending : ℕ) : List Bytes → List (List Value × ℕ)
  | [] => []
  | chunk :: chunks =>
    let received := pending + chunk.length
    let k := completed (queue.map Prod.fst) received
    let left := received - ((queue.take k).map Prod.fst).sum
    ((queue.take k).map Prod.snd, left) :: expected (queue.drop k) left chunks

/-- The frames of a queue by their lengths. -/
def Queue.measured (queue : Queue) : List (ℕ × Value) := queue.map fun f => (f.1.length, f.2)

lemma Queue.fst_measured : queue.measured.map Prod.fst = queue.lengths := by
  rw [Queue.measured, Queue.lengths, map_map]
  rfl

lemma expected_cons (pending : ℕ) (chunk : Bytes) (chunks : List Bytes) {k : ℕ}
    (hk : completed queue.lengths (pending + chunk.length) = k) :
    expected queue.measured pending (chunk :: chunks) = ((queue.take k).map Prod.snd,
          pending + chunk.length - (Queue.bytes (queue.take k)).length) ::
        expected (Queue.measured (queue.drop k))
          (pending + chunk.length - (Queue.bytes (queue.take k)).length) chunks := by
  have htake : queue.measured.take k = Queue.measured (queue.take k) := by
    rw [Queue.measured, Queue.measured, map_take]
  have hdrop : queue.measured.drop k = Queue.measured (queue.drop k) := by
    rw [Queue.measured, Queue.measured, map_drop]
  have hsnd : (Queue.measured (queue.take k)).map Prod.snd = (queue.take k).map Prod.snd := by
    rw [Queue.measured, map_map]
    rfl
  simp only [expected, Queue.fst_measured, hk]
  rw [htake, hdrop, hsnd, Queue.fst_measured, ← Queue.length_bytes]

lemma observeBytes_eq_expected {queue : Queue}
    (h : ∀ f ∈ queue, Carries runtime maxFrameBytes readConstraints f.1 f.2) {pending : Bytes}
    {chunks : List Bytes} (hstream : pending ++ chunks.flatten = queue.bytes) :
    observeBytes runtime maxFrameBytes readConstraints pending chunks =
      .ok (expected queue.measured pending.length chunks) := by
  induction chunks generalizing queue pending with
  | nil => rfl
  | cons chunk chunks ih =>
    rw [flatten_cons, ← append_assoc] at hstream
    have hdrain := drain_queue h ⟨_, hstream⟩
    have hle := length_completed_le queue (pending ++ chunk).length
    obtain ⟨k, hk⟩ : ∃ k, completed queue.lengths (pending ++ chunk).length = k := ⟨_, rfl⟩
    simp only [hk] at hdrain hle
    have hrest : (pending ++ chunk).drop (Queue.bytes (queue.take k)).length ++ chunks.flatten =
        Queue.bytes (queue.drop k) := by
      rw [← drop_append_of_le_length hle, hstream, ← Queue.bytes_take_append_drop queue k,
        drop_left]
    have hmore := ih (fun f hf => h f (mem_of_mem_drop hf)) hrest
    rw [length_append] at hk
    rw [observeBytes, hdrain, expected_cons queue _ _ _ hk]
    change (do
      let rest ← observeBytes runtime maxFrameBytes readConstraints
        ((pending ++ chunk).drop (Queue.bytes (queue.take k)).length) chunks
      pure ((_, _) :: rest)) = _
    rw [hmore, length_drop, length_append]
    rfl

end Bytes

/-! ### Frames of messages -/

section Messages

variable {runtime : Runtime} {maxFrameBytes : ℕ} {readConstraints : ReadConstraints} {v : Value}

lemma checkLength_eq_ok_iff {maxDocumentBytes n : ℕ} :
    checkLength maxFrameBytes maxDocumentBytes n = .ok () ↔
      n ≤ maxFrameBytes ∧ (maxDocumentBytes = 0 ∨ n ≤ maxDocumentBytes) := by
  unfold checkLength
  split
  · simp only [reduceCtorEq, false_iff]
    omega
  · split
    · simp only [reduceCtorEq, false_iff]
      omega
    · simp only [true_iff]
      omega

lemma yields_decodePayload {t : Json} (hv : v.WellFormed runtime)
    (h : encodeJsonTree runtime .omit v = .ok t) (maxNestingDepth : ℕ) :
    Yields (decodePayload runtime maxNestingDepth (Utf8.encode t.stringify))
      (v.levels true ≤ maxNestingDepth + 1 ∧ v.hasTexts true = true) (v.restore true) := by
  have hdecode := yields_decodeJsonTree hv h maxNestingDepth
  rw [decodePayload, Json.decode_encode_stringify, parse_stringify_encoded hv h]
  constructor
  · intro hp
    simp only [hdecode.1 hp]
  · intro hp
    obtain ⟨e, he⟩ := hdecode.2 hp
    simp only [he]
    exact ⟨_, rfl⟩

lemma encodeFrame_eq_ok {frame : Bytes} (h : encodeFrame runtime v = .ok frame) :
    ∃ t, encodeJsonTree runtime .omit v = .ok t ∧
      frame = uint32Bytes (Utf8.encode t.stringify).length ++ Utf8.encode t.stringify := by
  obtain ⟨t, ht, h⟩ := bind_eq_ok h
  cases h
  exact ⟨t, ht, rfl⟩

/-- The decoder reads the frame of the message back: the message is nested no deeper
than the decoder descends, its errors have texts, the header can say how long it is,
and it is no longer than a document may be. -/
def Readable (readConstraints : ReadConstraints) (message : Value) (frame : Bytes) : Prop :=
  (message.levels true ≤ readConstraints.maxNestingDepth + 1 ∧ message.hasTexts true = true) ∧
    frame.length < headerSize + 2 ^ 32 ∧
    (readConstraints.maxDocumentBytes = 0 ∨
      frame.length ≤ headerSize + readConstraints.maxDocumentBytes)

lemma carries_of_readable {frame : Bytes} (hv : v.WellFormed runtime)
    (h : encodeFrame runtime v = .ok frame) (hsize : frame.length ≤ headerSize + maxFrameBytes)
    (hreadable : Readable readConstraints v frame) :
    Carries runtime maxFrameBytes readConstraints frame (v.restore true) := by
  obtain ⟨t, ht, rfl⟩ := encodeFrame_eq_ok h
  obtain ⟨htree, hlt, hdocument⟩ := hreadable
  rw [length_append, length_uint32Bytes] at hsize hlt hdocument
  refine ⟨_, rfl, by omega, checkLength_eq_ok_iff.2 ?_, (yields_decodePayload hv ht _).1 htree⟩
  omega

lemma drain_unreadable {frame : Bytes} (hv : v.WellFormed runtime)
    (h : encodeFrame runtime v = .ok frame) (hsize : frame.length ≤ headerSize + maxFrameBytes)
    (hreadable : ¬ Readable readConstraints v frame) :
    ∃ front back, frame = front ++ back ∧ front ≠ [] ∧
      ((∃ e, ∀ rest, drain runtime maxFrameBytes readConstraints (front ++ rest) = .error e) ∨
        back ≠ [] ∧ ∃ message,
          drain runtime maxFrameBytes readConstraints front = .ok ([], [message])) := by
  obtain ⟨t, ht, rfl⟩ := encodeFrame_eq_ok h
  have hdecode := yields_decodePayload hv ht readConstraints.maxNestingDepth
  generalize Utf8.encode t.stringify = payload at hdecode hsize hreadable ⊢
  rw [Readable] at hreadable
  rw [length_append, length_uint32Bytes] at hsize hreadable
  have hmod := mod_le payload.length (2 ^ 32)
  have htake : (payload.take (payload.length % 2 ^ 32)).length = payload.length % 2 ^ 32 := by
    rw [length_take, min_eq_left hmod]
  refine ⟨uint32Bytes payload.length ++ payload.take (payload.length % 2 ^ 32),
    payload.drop (payload.length % 2 ^ 32), by rw [append_assoc, take_append_drop],
    by simp [uint32Bytes], ?_⟩
  have hframe := drain_frame runtime maxFrameBytes readConstraints htake
  cases hcheck : checkLength maxFrameBytes readConstraints.maxDocumentBytes
      (payload.length % 2 ^ 32) with
  | error e => exact .inl ⟨e, fun rest => by rw [hframe, hcheck]⟩
  | ok u =>
    cases hpayload : decodePayload runtime readConstraints.maxNestingDepth
        (payload.take (payload.length % 2 ^ 32)) with
    | error e => exact .inl ⟨e, fun rest => by rw [hframe, hcheck]; simp only [hpayload]⟩
    | ok message =>
      right
      have hnil : drain runtime maxFrameBytes readConstraints [] = .ok ([], []) :=
        drain_short _ _ _ (by decide)
      refine ⟨?_, message, ?_⟩
      · -- A frame that is short enough for its header is read whole, so it is readable.
        intro hback
        rw [drop_eq_nil_iff] at hback
        have heq : payload.length % 2 ^ 32 = payload.length := le_antisymm hmod hback
        rw [heq, take_length] at hpayload
        have htree := hdecode.exists_ok_iff.1 ⟨message, hpayload⟩
        have hdocument := (checkLength_eq_ok_iff.1 hcheck).2
        exact hreadable ⟨htree, by omega, by omega⟩
      · have hfront := hframe []
        rw [append_nil, hcheck] at hfront
        simp only [hpayload, hnil] at hfront
        exact hfront

lemma drain_carried {queue : Queue}
    (h : ∀ f ∈ queue, Carries runtime maxFrameBytes readConstraints f.1 f.2) (rest : Bytes) :
    drain runtime maxFrameBytes readConstraints (queue.bytes ++ rest) = (do
      let (rest, messages) ← drain runtime maxFrameBytes readConstraints rest
      return (rest, queue.map Prod.snd ++ messages)) := by
  induction queue with
  | nil =>
    cases hrest : drain runtime maxFrameBytes readConstraints rest <;>
      simp [Queue.bytes, hrest]
  | cons f queue ih =>
    rw [forall_mem_cons] at h
    rw [Queue.bytes_cons, append_assoc, drain_carries h.1, ih h.2]
    cases drain runtime maxFrameBytes readConstraints rest <;> rfl

lemma completed_append {lengths more : List ℕ} {length n : ℕ} (h : n < length) :
    completed (lengths ++ length :: more) (lengths.sum + n) = lengths.length := by
  induction lengths with
  | nil => simp [completed, not_le.2 h]
  | cons l lengths ih =>
    have hle : l ≤ (l :: lengths).sum + n := by
      rw [sum_cons]
      omega
    rw [cons_append, completed, if_pos hle, sum_cons, length_cons,
      show l + lengths.sum + n - l = lengths.sum + n by omega, ih]

lemma exists_first {α : Type} {p : α → Prop} {l : List α} (h : ¬ ∀ a ∈ l, p a) :
    ∃ before a after, l = before ++ a :: after ∧ (∀ b ∈ before, p b) ∧ ¬ p a := by
  induction l with
  | nil => exact absurd (by simp) h
  | cons a l ih =>
    by_cases ha : p a
    · rw [forall_mem_cons, not_and] at h
      obtain ⟨before, b, after, rfl, hbefore, hb⟩ := ih (h ha)
      exact ⟨a :: before, b, after, rfl, forall_mem_cons.2 ⟨ha, hbefore⟩, hb⟩
    · exact ⟨[], a, l, rfl, by simp, ha⟩

/-- The messages of some frames, each as the decoder reads it. -/
def Queue.ofSent (sent : List (JsValue runtime × Bytes)) : Queue :=
  sent.map fun s => (s.2, s.1.1.restore true)

variable (sent : List (JsValue runtime × Bytes))

lemma Queue.bytes_ofSent : (Queue.ofSent sent).bytes = (sent.map Prod.snd).flatten := by
  rw [Queue.bytes, Queue.ofSent, map_map]
  rfl

lemma Queue.measured_ofSent :
    (Queue.ofSent sent).measured = sent.map fun s => (s.2.length, s.1.1.restore true) := by
  rw [Queue.measured, Queue.ofSent, map_map]
  rfl

lemma carries_ofSent {sent : List (JsValue runtime × Bytes)}
    (hsent : ∀ s ∈ sent, encodeFrame runtime s.1.1 = .ok s.2)
    (hsize : ∀ s ∈ sent, s.2.length ≤ headerSize + maxFrameBytes)
    (hreadable : ∀ s ∈ sent, Readable readConstraints s.1.1 s.2) :
    ∀ f ∈ Queue.ofSent sent, Carries runtime maxFrameBytes readConstraints f.1 f.2 := by
  intro f hf
  obtain ⟨s, hs, rfl⟩ := mem_map.1 hf
  exact carries_of_readable s.1.2 (hsent s hs) (hsize s hs) (hreadable s hs)

lemma expected_cut (queue more : Queue) (f : Bytes × Value) {front : Bytes}
    (h : front.length < f.1.length) (chunks : List Bytes) :
    ∃ messages rest, expected (Queue.measured (queue ++ f :: more)) 0
      ((queue.bytes ++ front) :: chunks) = (messages, front.length) :: rest := by
  have hk : completed (Queue.lengths (queue ++ f :: more)) (0 + (queue.bytes ++ front).length) =
      queue.length := by
    have happend : Queue.lengths (queue ++ f :: more) =
        queue.lengths ++ f.1.length :: Queue.lengths more := by
      simp [Queue.lengths]
    rw [happend, zero_add, length_append, Queue.length_bytes, completed_append h,
      Queue.lengths, length_map]
  rw [expected_cons _ _ _ _ hk, take_left, length_append]
  refine ⟨_, _, congrArg₂ _ (congrArg _ ?_) rfl⟩
  omega

/-- However the frames of some messages are cut into chunks, the pushes return the messages, each at
the push whose chunk completes its frame, and the bytes pending are those of no frame returned:
exactly if every one of the messages can be read back. -/
theorem observe_eq_expected_iff (runtime : Runtime) (d : FrameDecoder) (hd : d.pendingBytes = 0)
    (sent : List (JsValue runtime × Bytes))
    (hsent : ∀ s ∈ sent, encodeFrame runtime s.1.1 = .ok s.2)
    (hsize : ∀ s ∈ sent, s.2.length ≤ headerSize + d.maxFrameBytes) :
    ((∀ chunks : List Bytes, chunks.flatten = (sent.map Prod.snd).flatten →
        observe runtime d chunks =
          .ok (expected (sent.map fun s => (s.2.length, s.1.1.restore true)) 0 chunks)) ↔
      ∀ s ∈ sent, Readable d.readConstraints s.1.1 s.2) ∧
    ∀ s ∈ sent, (s.1.1.BuiltFrom JsonLeaf fun _ => True) →
      s.1.1.restore true = s.1.1.withoutUndefined := by
  have hpending : d.pending = [] := by rw [← length_eq_zero_iff, d.length_pending, hd]
  refine ⟨⟨fun h => ?_, fun h chunks hchunks => ?_⟩, fun s _ hs =>
    (kept_of_builtFrom hs s.1.2).restored⟩
  · by_contra hbad
    obtain ⟨before, s, after, rfl, hbefore, hs⟩ := exists_first hbad
    have hmem : s ∈ before ++ s :: after := by simp
    obtain ⟨front, back, hframe, hfront, hdrain⟩ :=
      drain_unreadable s.1.2 (hsent s hmem) (hsize s hmem) hs
    have hcarries := carries_ofSent (fun b hb => hsent b (mem_append_left _ hb))
      (fun b hb => hsize b (mem_append_left _ hb)) hbefore
    have hrun := h [(Queue.ofSent before).bytes ++ front, back ++ (after.map Prod.snd).flatten]
      (by simp [Queue.bytes_ofSent, hframe])
    rw [observe_eq_observeBytes, hpending, observeBytes, nil_append, drain_carried hcarries] at hrun
    rcases hdrain with ⟨e, he⟩ | ⟨hback, message, hmessage⟩
    · have herror := he []
      rw [append_nil] at herror
      rw [herror] at hrun
      cases hrun
    · rw [hmessage] at hrun
      have hlt : front.length < s.2.length := by
        rw [hframe, length_append]
        have hpos := length_pos_iff.2 hback
        omega
      obtain ⟨messages, rest, hexpected⟩ := expected_cut (Queue.ofSent before)
        (Queue.ofSent after) (s.2, s.1.1.restore true) hlt
        [back ++ (after.map Prod.snd).flatten]
      have hqueue : Queue.ofSent before ++ (s.2, s.1.1.restore true) :: Queue.ofSent after =
          Queue.ofSent (before ++ s :: after) := by
        simp [Queue.ofSent]
      rw [hqueue, Queue.measured_ofSent] at hexpected
      rw [hexpected] at hrun
      obtain ⟨first, hfirst, hrun⟩ := bind_eq_ok hrun
      cases hfirst
      obtain ⟨more, -, hrun⟩ := bind_eq_ok hrun
      have hzero : (0 : ℕ) = front.length := by
        injection hrun with hrun
        injection hrun with hhead
        injection hhead
      exact hfront (length_eq_zero_iff.1 hzero.symm)
  · have hcarries := carries_ofSent hsent hsize h
    have hstream : d.pending ++ chunks.flatten = (Queue.ofSent sent).bytes := by
      rw [hpending, nil_append, hchunks, Queue.bytes_ofSent]
    rw [observe_eq_observeBytes, observeBytes_eq_expected hcarries hstream,
      Queue.measured_ofSent, hpending]
    rfl

lemma exists_push_iff {d : FrameDecoder} {chunk : Bytes} (hd : d.pendingBytes = 0) :
    (∃ r, d.push runtime chunk = .ok r) ↔
      ∃ r, drain runtime d.maxFrameBytes d.readConstraints chunk = .ok r := by
  have hpush := d.push_refines runtime chunk
  have hpending : d.pending = [] := by rw [← length_eq_zero_iff, d.length_pending, hd]
  rw [hpending, nil_append] at hpush
  rw [← hpush]
  cases d.push runtime chunk with
  | error e =>
    constructor
    · rintro ⟨r, ⟨⟩⟩
    · rintro ⟨r, ⟨⟩⟩
  | ok r => exact ⟨fun _ => ⟨_, rfl⟩, fun _ => ⟨r, rfl⟩⟩

lemma exists_drain_iff {frame : Bytes} (hv : v.WellFormed runtime)
    (h : encodeFrame runtime v = .ok frame) (hsize : frame.length ≤ headerSize + maxFrameBytes)
    (hlt : frame.length < headerSize + 2 ^ 32) (hdocument : readConstraints.maxDocumentBytes = 0) :
    (∃ r, drain runtime maxFrameBytes readConstraints frame = .ok r) ↔
      v.levels true ≤ readConstraints.maxNestingDepth + 1 ∧ v.hasTexts true = true := by
  have hnil : drain runtime maxFrameBytes readConstraints [] = .ok ([], []) :=
    drain_short _ _ _ (by decide)
  constructor
  · rintro ⟨r, hr⟩
    by_contra hreadable
    obtain ⟨t, ht, rfl⟩ := encodeFrame_eq_ok h
    obtain ⟨e, he⟩ := (yields_decodePayload hv ht readConstraints.maxNestingDepth).2 hreadable
    rw [length_append, length_uint32Bytes] at hsize hlt
    have hmod := mod_eq_of_lt (lt_of_add_lt_add_left hlt)
    have hcheck := checkLength_eq_ok_iff.2 ⟨le_of_add_le_add_left hsize, .inl hdocument⟩
    have hdrain := drain_frame runtime maxFrameBytes readConstraints hmod.symm []
    rw [append_nil, hmod, hcheck] at hdrain
    simp only [he] at hdrain
    rw [hdrain] at hr
    cases hr
  · intro hreadable
    have hcarries := carries_of_readable hv h hsize ⟨hreadable, hlt, .inl hdocument⟩
    have hdrain := drain_carries hcarries []
    rw [append_nil, hnil] at hdrain
    exact ⟨_, hdrain⟩

/-- What the encoder accepts, the decoder accepts, as text and as a frame within the
cap: exactly if it is nested no deeper than the decoder descends and every error in it
has strings for its name and its message. -/
theorem decode_accepts_encoded_iff (runtime : Runtime) (undefinedValues : UndefinedValueHandling)
    (v : JsValue runtime) (t : Json) (h : encodeJsonTree runtime undefinedValues v.1 = .ok t) :
    ((∃ w, decodeText runtime defaultMaxNestingDepth t.stringify = .ok w) ↔
        v.1.levels true ≤ defaultMaxNestingDepth + 1 ∧ v.1.hasTexts true = true) ∧
      ∀ frame, encodeFrame runtime v.1 = .ok frame →
        frame.length ≤ headerSize + defaultMaxFrameBytes →
        ((∃ r, standard.push runtime frame = .ok r) ↔
          v.1.levels true ≤ defaultMaxNestingDepth + 1 ∧ v.1.hasTexts true = true) := by
  refine ⟨(yields_decodeText v.2 h defaultMaxNestingDepth).exists_ok_iff,
    fun frame hframe hsize => ?_⟩
  rw [exists_push_iff rfl]
  have hcap : defaultMaxFrameBytes < 2 ^ 32 := by decide
  exact exists_drain_iff v.2 hframe hsize (by omega) rfl

end Messages

/-! ### Nested arrays -/

section Nested

/-- An empty array inside so many others. -/
def nested : ℕ → Value
  | 0 => .array []
  | n + 1 => .array [nested n]

lemma levels_nested (n : ℕ) (allowToJson : Bool) : (nested n).levels allowToJson = n + 1 := by
  induction n generalizing allowToJson with
  | zero => rfl
  | succ n ih =>
    rw [nested, Value.levels, Value.itemsLevels, Value.itemsLevels, ih, max_zero, add_comm]

lemma wellFormed_nested (runtime : Runtime) (n : ℕ) : (nested n).WellFormed runtime := by
  induction n with
  | zero => exact ⟨show 0 < 2 ^ 53 by norm_num, trivial⟩
  | succ n ih => exact ⟨show 1 < 2 ^ 53 by norm_num, ih, trivial⟩

lemma builtFrom_nested (n : ℕ) : (nested n).BuiltFrom JsonLeaf fun _ => True := by
  induction n with
  | zero => exact .array (by simp)
  | succ n ih => exact .array (by simpa using ih)

lemma nested_ne_undefined (n : ℕ) : nested n ≠ .undefined := by
  cases n <;> exact Value.noConfusion

lemma not_readable_nested : ¬ ((nested 257).levels true ≤ defaultMaxNestingDepth + 1 ∧
    (nested 257).hasTexts true = true) := by
  rw [levels_nested]
  exact fun h => absurd h.1 (by decide)

lemma push_nested :
    ∃ frame, encodeFrame bareRuntime (nested 257) = .ok frame ∧ frame.length = 520 ∧
      ∀ r, standard.push bareRuntime frame ≠ .ok r := by
  have hlength : (encodeFrame bareRuntime (nested 257)).toOption.map List.length = some 520 := by
    decide +kernel
  cases hframe : encodeFrame bareRuntime (nested 257) with
  | error e =>
    rw [hframe] at hlength
    cases hlength
  | ok frame =>
    rw [hframe] at hlength
    have hsize : frame.length = 520 := Option.some.inj hlength
    have hcap : headerSize + standard.maxFrameBytes = 16777220 := rfl
    refine ⟨frame, rfl, hsize, fun r hr => not_readable_nested ?_⟩
    exact (exists_drain_iff (wellFormed_nested bareRuntime 257) hframe (by omega) (by omega)
      rfl).1 ((exists_push_iff (d := standard) rfl).1 ⟨r, hr⟩)

/-- Arrays 258 deep are encoded, as a tree and as a frame, and refused by the decoder in
both forms. -/
theorem decode_refuses_nested : (∃ t e, encodeJsonTree bareRuntime .omit (nested 257) = .ok t ∧
      decodeText bareRuntime defaultMaxNestingDepth t.stringify = .error e) ∧
    ∃ frame, encodeFrame bareRuntime (nested 257) = .ok frame ∧
      frame.length ≤ headerSize + defaultMaxFrameBytes ∧
      ∀ r, standard.push bareRuntime frame ≠ .ok r := by
  have hv := wellFormed_nested bareRuntime 257
  obtain ⟨t, ht⟩ := encodeJsonTree_of_kept (kept_of_builtFrom (builtFrom_nested 257) hv)
    (nested_ne_undefined 257)
  obtain ⟨e, he⟩ := (yields_decodeText hv ht defaultMaxNestingDepth).2 not_readable_nested
  obtain ⟨frame, hframe, hlength, hpush⟩ := push_nested
  have hcap : headerSize + defaultMaxFrameBytes = 16777220 := rfl
  exact ⟨⟨t, e, ht, he⟩, frame, hframe, by omega, hpush⟩

theorem decode_accepts_array_of_null :
    (∃ w, decodeText bareRuntime defaultMaxNestingDepth (Json.arr [.null]).stringify = .ok w) ∧
      ∃ r, standard.push bareRuntime [0, 0, 0, 6, 0x5B, 0x6E, 0x75, 0x6C, 0x6C, 0x5D] = .ok r := by
  have haccepts := decode_accepts_encoded_iff bareRuntime .omit
    ⟨.array [.null], by decide, trivial, trivial⟩ (.arr [.null]) rfl
  exact ⟨haccepts.1.2 ⟨by decide, rfl⟩, (haccepts.2 _ rfl (by decide)).2 ⟨by decide, rfl⟩⟩

/-- The frame of arrays 258 deep in one chunk is not returned. -/
theorem observe_refuses_nested : ∃ frame, encodeFrame bareRuntime (nested 257) = .ok frame ∧
      frame.length ≤ headerSize + standard.maxFrameBytes ∧
      standard.pendingBytes = 0 ∧
      observe bareRuntime standard [frame] ≠
        .ok (expected [(frame.length, (nested 257).restore true)] 0 [frame]) := by
  obtain ⟨frame, hframe, hlength, hpush⟩ := push_nested
  have hcap : headerSize + standard.maxFrameBytes = 16777220 := rfl
  refine ⟨frame, hframe, by omega, rfl, fun h => ?_⟩
  obtain ⟨r, hr, -⟩ := bind_eq_ok h
  exact hpush r hr

/-- A frame in three chunks, the first of which ends inside the header. -/
theorem observe_array_of_null : observe bareRuntime standard
        [[0, 0], [0, 6, 0x5B, 0x6E], [], [0x75, 0x6C, 0x6C, 0x5D]] =
      .ok [([], 2), ([], 6), ([], 6), ([.array [.null]], 0)] := by
  have hobserve := observe_eq_expected_iff bareRuntime standard rfl
    [(⟨.array [.null], by decide, trivial, trivial⟩, [0, 0, 0, 6, 0x5B, 0x6E, 0x75, 0x6C, 0x6C, 0x5D])]
    (by
      rw [forall_mem_singleton]
      rfl) (by
      decide)
  refine hobserve.1.2 ?_ _ rfl
  simp only [mem_singleton, forall_eq]
  exact ⟨⟨by decide, rfl⟩, by decide, by decide⟩

end Nested

end ActorTs.Cluster
