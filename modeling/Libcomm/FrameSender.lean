import Libcomm.FrameFormat
import Libcomm.StreamProcessor
import Mathlib.Logic.Function.Basic

/-!
# Sending frames

`Send`, with the number that `NextSequence` allocates and the frame that
`TransmitFrame` hands to the write callback.  The result of the callback is an
argument here, and the frame it is handed is part of the result.  `BuildFrame` is a
second encoder with checks of its own; the last section compares the two.
-/

set_option autoImplicit false

namespace Libcomm

/-! ## The source -/

/-- A pointer, null or to readable bytes, and the number of bytes to be sent. -/
structure SendArguments where
  payloadData : Option Bytes
  payloadSizeBytes : Nat
  readable : ∀ bytes, payloadData = some bytes → payloadSizeBytes ≤ bytes.length

/-- A null pointer with a size, which `Send` rejects before anything else. -/
def SendArguments.Invalid (arguments : SendArguments) : Prop :=
  arguments.payloadData = none ∧ arguments.payloadSizeBytes > 0

instance (arguments : SendArguments) : Decidable arguments.Invalid :=
  inferInstanceAs (Decidable (_ ∧ _))

def SendArguments.payload (arguments : SendArguments) : Bytes :=
  match arguments.payloadData with
  | some bytes => bytes.take arguments.payloadSizeBytes
  | none => []

def SendArguments.ofBytes (bytes : Bytes) : SendArguments :=
  ⟨some bytes, bytes.length, fun _ same => by cases same; exact Nat.le_refl _⟩

theorem store_length (buffer bytes : Bytes) {offset : Nat}
    (fits : offset + bytes.length ≤ buffer.length) :
    (store buffer offset bytes).length = buffer.length := by
  simp only [store, List.length_append, List.length_take, List.length_drop]
  omega

theorem layFrame_length (buffer : Bytes) (type : FrameType) (sequenceNumber : UInt16)
    (payload : Option Bytes) (payloadSize : Nat)
    (fits : kHeaderSize + payloadSize + kCrcSize ≤ buffer.length) :
    (layFrame buffer type sequenceNumber payload payloadSize).length = buffer.length := by
  cases type
  simp only [layFrame, store_header]
  set header := frameHeader sequenceNumber payloadSize ++ buffer.drop kHeaderSize with headerDef
  have headerLength : header.length = buffer.length := by
    rw [headerDef, List.length_append, frameHeader_length, List.length_drop]
    omega
  have sealed {message : Bytes} (length : message.length = buffer.length) (crc : Nat) :
      (store message (kHeaderSize + payloadSize + kCrcSize - kCrcSize)
        (LittleEndian.encode 4 crc)).length = buffer.length := by
    rw [store_length, length]
    rw [length, LittleEndian.encode_length]
    simp only [kCrcSize] at fits ⊢
    omega
  cases payload with
  | none => exact sealed headerLength _
  | some bytes =>
      have read : (bytes.take payloadSize).length ≤ payloadSize := List.length_take_le _ _
      by_cases filled : payloadSize > 0
      · simp only [if_pos filled]
        apply sealed
        rw [store_length _ _ (by omega), headerLength]
      · simp only [if_neg filled]
        exact sealed headerLength _

namespace FrameBuffer

def lay (buffer : FrameBuffer) (type : FrameType) (sequenceNumber : UInt16)
    (arguments : SendArguments) (small : arguments.payloadSizeBytes ≤ kMaxFrameSize) :
    FrameBuffer where
  bytes := layFrame buffer.bytes type sequenceNumber arguments.payloadData
    arguments.payloadSizeBytes
  length_eq := by
    rw [layFrame_length, buffer.length_eq]
    rw [buffer.length_eq, kBufferCapacity]
    omega

end FrameBuffer

/-- The static buffers of `TransmitFrame`, which all transports share. -/
structure TransmitBuffers where
  transmitBuffers : Fin 2 → FrameBuffer
  activeBufferIndex : Fin 2

def TransmitBuffers.filled (buffers : TransmitBuffers) (content : FrameBuffer) :
    TransmitBuffers :=
  ⟨Function.update buffers.transmitBuffers buffers.activeBufferIndex content,
    buffers.activeBufferIndex + 1⟩

structure FrameTransport where
  writeRegistered : Bool
  nextSequenceNumber : UInt16

namespace FrameTransport

def new (writeRegistered : Bool) : FrameTransport := ⟨writeRegistered, 1⟩

/-- `NextSequence`: the allocated number and the transport afterwards. -/
def nextSequence (transport : FrameTransport) : UInt16 × FrameTransport :=
  let allocatedSequenceNumber := transport.nextSequenceNumber
  let next := transport.nextSequenceNumber + 1
  let next := if next = 0 then next + 1 else next
  (allocatedSequenceNumber, { transport with nextSequenceNumber := next })

@[simp] theorem nextSequence_writeRegistered (transport : FrameTransport) :
    transport.nextSequence.2.writeRegistered = transport.writeRegistered := rfl

/-- `TransmitFrame`: its result, the bytes handed to the write callback, and the
shared buffers afterwards. -/
def transmitFrame (transport : FrameTransport) (type : FrameType) (sequenceNumber : UInt16)
    (arguments : SendArguments) (writeSucceeded : Bool) (buffers : TransmitBuffers) :
    Bool × Option Bytes × TransmitBuffers :=
  if ¬ transport.writeRegistered then (false, none, buffers)
  else if large : arguments.payloadSizeBytes > kMaxFrameSize then (false, none, buffers)
  else
    let totalTransmitSizeBytes := kHeaderSize + arguments.payloadSizeBytes + kCrcSize
    let active := buffers.activeBufferIndex
    let buffer := (buffers.transmitBuffers active).lay type sequenceNumber arguments
      (Nat.le_of_not_lt large)
    (writeSucceeded, some (buffer.bytes.take totalTransmitSizeBytes),
      ⟨Function.update buffers.transmitBuffers active buffer, active + 1⟩)

/-- `Send`, by one caller at a time. -/
def send (transport : FrameTransport) (arguments : SendArguments) (writeSucceeded : Bool)
    (buffers : TransmitBuffers) : Bool × Option Bytes × FrameTransport × TransmitBuffers :=
  if arguments.Invalid then (false, none, transport, buffers)
  else
    let (allocatedSequenceNumber, transport) := transport.nextSequence
    let (transmissionSucceeded, handed, buffers) :=
      transport.transmitFrame .data allocatedSequenceNumber arguments writeSucceeded buffers
    (transmissionSucceeded, handed, transport, buffers)

/-! ## The allocated numbers -/

/-- The number of the allocation that `ticket` allocations precede. -/
def sequenceNumberAt (ticket : Nat) : Nat := ticket % 65535 + 1

theorem nextSequence_numbered (transport : FrameTransport) (ticket : Nat)
    (numbered : transport.nextSequenceNumber.toNat = sequenceNumberAt ticket) :
    transport.nextSequence.1.toNat = sequenceNumberAt ticket ∧
      transport.nextSequence.2.nextSequenceNumber.toNat = sequenceNumberAt (ticket + 1) := by
  refine ⟨numbered, ?_⟩
  have bound := transport.nextSequenceNumber.toNat_lt
  have one : (1 : UInt16).toNat = 1 := rfl
  have zero : transport.nextSequenceNumber + 1 = 0 ↔
      (transport.nextSequenceNumber.toNat + 1) % 2 ^ 16 = 0 := by
    rw [← UInt16.toNat_inj, UInt16.toNat_add, one]
    rfl
  simp only [nextSequence, sequenceNumberAt] at numbered ⊢
  split
  · next wraps =>
      rw [wraps, UInt16.zero_add, one]
      rw [zero] at wraps
      omega
  · next counts =>
      rw [UInt16.toNat_add, one]
      rw [zero] at counts
      omega

theorem sequenceNumberAt_ne_zero (ticket : Nat) : sequenceNumberAt ticket ≠ 0 :=
  Nat.succ_ne_zero _

/-- A number is given out again after 65535 allocations, and not earlier. -/
theorem sequenceNumberAt_repeats {earlier later : Nat} (order : earlier < later)
    (same : sequenceNumberAt earlier = sequenceNumberAt later) : earlier + 65535 ≤ later := by
  simp only [sequenceNumberAt] at same
  omega

/-! ## The frames -/

def receivedSequenceNumber (frame : Bytes) : UInt16 :=
  UInt16.ofNat (LittleEndian.decode ((frame.drop 2).take 2))

theorem receivedSequenceNumber_encodeFrame (sequenceNumber : UInt16) (payload : Bytes) :
    receivedSequenceNumber (encodeFrame sequenceNumber payload) = sequenceNumber := by
  have field : ((encodeFrame sequenceNumber payload).drop 2).take 2 =
      LittleEndian.encode 2 sequenceNumber.toNat := by
    simp only [encodeFrame, frameMessage, frameHeader, List.append_assoc]
    exact List.take_left' (LittleEndian.encode_length _ _)
  rw [receivedSequenceNumber, field,
    LittleEndian.decode_encode_of_lt 2 sequenceNumber.toNat sequenceNumber.toNat_lt,
    UInt16.ofNat_toNat]

theorem layFrame_arguments (buffer : Bytes) (sequenceNumber : UInt16) {arguments : SendArguments}
    (valid : ¬ arguments.Invalid) :
    layFrame buffer .data sequenceNumber arguments.payloadData arguments.payloadSizeBytes =
        encodeFrame sequenceNumber arguments.payload ++
          buffer.drop (kHeaderSize + arguments.payloadSizeBytes + kCrcSize) ∧
      arguments.payload.length = arguments.payloadSizeBytes := by
  obtain ⟨data, size, readable⟩ := arguments
  cases data with
  | none =>
      have zero : size = 0 := by
        by_contra some
        exact valid ⟨rfl, Nat.pos_of_ne_zero some⟩
      subst zero
      exact ⟨layFrame_eq buffer sequenceNumber [], rfl⟩
  | some bytes =>
      have length : (bytes.take size).length = size := List.length_take_of_le (readable bytes rfl)
      refine ⟨?_, length⟩
      have laid := layFrame_eq buffer sequenceNumber (bytes.take size)
      rw [length] at laid
      rw [SendArguments.payload, ← laid]
      simp only [layFrame, List.take_take, Nat.min_self]

theorem lay_take (buffer : FrameBuffer) (sequenceNumber : UInt16) {arguments : SendArguments}
    (valid : ¬ arguments.Invalid) (small : arguments.payloadSizeBytes ≤ kMaxFrameSize) :
    (buffer.lay .data sequenceNumber arguments small).bytes.take
        (kHeaderSize + arguments.payloadSizeBytes + kCrcSize) =
      encodeFrame sequenceNumber arguments.payload := by
  obtain ⟨laid, length⟩ := layFrame_arguments buffer.bytes sequenceNumber valid
  have bytes : (buffer.lay .data sequenceNumber arguments small).bytes =
      layFrame buffer.bytes .data sequenceNumber arguments.payloadData
        arguments.payloadSizeBytes := rfl
  rw [bytes, laid]
  exact List.take_left' (by rw [encodeFrame_length, length])

/-- `TransmitFrame` refuses, or hands over the frame that `BuildFrame` would build. -/
theorem transmitFrame_cases (transport : FrameTransport) (sequenceNumber : UInt16)
    {arguments : SendArguments} (valid : ¬ arguments.Invalid) (writeSucceeded : Bool)
    (buffers : TransmitBuffers) :
    ((transport.writeRegistered = false ∨ kMaxFrameSize < arguments.payload.length) ∧
      transport.transmitFrame .data sequenceNumber arguments writeSucceeded buffers =
        (false, none, buffers)) ∨
    (arguments.payload.length ≤ kMaxFrameSize ∧ ∃ later,
      transport.transmitFrame .data sequenceNumber arguments writeSucceeded buffers =
        (writeSucceeded, some (encodeFrame sequenceNumber arguments.payload), later)) := by
  have length := (layFrame_arguments [] sequenceNumber valid).2
  unfold transmitFrame
  by_cases missing : ¬ transport.writeRegistered
  · rw [if_pos missing]
    exact Or.inl ⟨Or.inl (by simpa using missing), rfl⟩
  by_cases large : arguments.payloadSizeBytes > kMaxFrameSize
  · rw [if_neg missing, dif_pos large]
    exact Or.inl ⟨Or.inr (by omega), rfl⟩
  · rw [if_neg missing, dif_neg large]
    refine Or.inr ⟨by omega, buffers.filled ((buffers.transmitBuffers
      buffers.activeBufferIndex).lay .data sequenceNumber arguments (Nat.le_of_not_lt large)), ?_⟩
    simp only [lay_take _ sequenceNumber valid]
    rfl

/-! ## The two encoders -/

theorem send_handed {transport : FrameTransport} (registered : transport.writeRegistered = true)
    (arguments : SendArguments) (writeSucceeded : Bool) (buffers : TransmitBuffers) :
    (transport.send arguments writeSucceeded buffers).2.1 =
      if ¬ arguments.Invalid ∧ arguments.payloadSizeBytes ≤ kMaxFrameSize then
        some (encodeFrame transport.nextSequenceNumber arguments.payload)
      else none := by
  by_cases invalid : arguments.Invalid
  · rw [send, if_pos invalid, if_neg fun both => both.1 invalid]
  have length := (layFrame_arguments [] 0 invalid).2
  simp only [send, if_neg invalid]
  rcases transport.nextSequence.2.transmitFrame_cases transport.nextSequence.1 invalid
      writeSucceeded buffers with ⟨missing | large, result⟩ | ⟨small, _, result⟩
  · exact absurd (registered.symm.trans missing) (by decide)
  · rw [result, if_neg fun both => by omega]
  · rw [result, if_pos ⟨invalid, by omega⟩]
    rfl

theorem buildFrame_of_fits (sequenceNumber : UInt16) (payload : Option Bytes) (buffer : Bytes)
    {payloadSize capacity : Nat} (small : payloadSize ≤ kMaxFrameSize)
    (enough : kHeaderSize + payloadSize + kCrcSize ≤ capacity) :
    buildFrame sequenceNumber payload payloadSize (some buffer) capacity =
      (kHeaderSize + payloadSize + kCrcSize,
        some (layFrame buffer .data sequenceNumber payload payloadSize)) := by
  rw [buildFrame, if_neg (by omega), if_neg (by omega)]

theorem buildFrame_arguments (sequenceNumber : UInt16) {arguments : SendArguments}
    (valid : ¬ arguments.Invalid) (buffer : Bytes) {capacity : Nat}
    (small : arguments.payloadSizeBytes ≤ kMaxFrameSize)
    (enough : kHeaderSize + arguments.payloadSizeBytes + kCrcSize ≤ capacity) :
    buildFrame sequenceNumber arguments.payloadData arguments.payloadSizeBytes (some buffer)
        capacity =
      (kHeaderSize + arguments.payloadSizeBytes + kCrcSize,
        some (encodeFrame sequenceNumber arguments.payload ++
          buffer.drop (kHeaderSize + arguments.payloadSizeBytes + kCrcSize))) := by
  rw [buildFrame_of_fits _ _ _ small enough, (layFrame_arguments buffer sequenceNumber valid).1]

/-- Over a null pointer `BuildFrame` makes a valid frame of the bytes that the
buffer happens to hold. -/
theorem buildFrame_null (sequenceNumber : UInt16) (buffer : Bytes) {payloadSize capacity : Nat}
    (small : payloadSize ≤ kMaxFrameSize)
    (enough : kHeaderSize + payloadSize + kCrcSize ≤ capacity)
    (readable : capacity ≤ buffer.length) :
    buildFrame sequenceNumber none payloadSize (some buffer) capacity =
      (kHeaderSize + payloadSize + kCrcSize,
        some (encodeFrame sequenceNumber ((buffer.drop kHeaderSize).take payloadSize) ++
          buffer.drop (kHeaderSize + payloadSize + kCrcSize))) := by
  set stale := (buffer.drop kHeaderSize).take payloadSize with staleDef
  have length : stale.length = payloadSize := by
    rw [staleDef, List.length_take, List.length_drop]
    omega
  have kept : store (frameHeader sequenceNumber payloadSize ++ buffer.drop kHeaderSize)
      kHeaderSize stale = frameHeader sequenceNumber payloadSize ++ buffer.drop kHeaderSize := by
    rw [store_append _ _ _ (frameHeader_length _ _).symm, length, staleDef,
      List.take_append_drop]
  have laid : layFrame buffer .data sequenceNumber none payloadSize =
      layFrame buffer .data sequenceNumber (some stale) stale.length := by
    simp only [layFrame, store_header, length, List.take_of_length_le (Nat.le_of_eq length), kept,
      ite_self]
  rw [buildFrame_of_fits _ _ _ small enough, laid, layFrame_eq, length]

/-- `Send` hands a frame over exactly when `BuildFrame` with the same number fills
an output buffer, and the bytes are the same. -/
def EncodersAgree (transport : FrameTransport) (arguments : SendArguments)
    (writeSucceeded : Bool) (buffers : TransmitBuffers) (outputBuffer : Bytes)
    (outputBufferCapacity : Nat) : Prop :=
  let handed := (transport.send arguments writeSucceeded buffers).2.1
  let built := buildFrame transport.nextSequenceNumber arguments.payloadData
    arguments.payloadSizeBytes (some outputBuffer) outputBufferCapacity
  (handed ≠ none ↔ built.1 ≠ 0) ∧
    ∀ frame, handed = some frame → built.2.map (List.take built.1) = some frame

/-- **Exactly when the two encoders agree**, whatever their buffers held before:
the pointer is not null, or there is nothing to be read through it, or more than
either of them sends. -/
theorem encoders_agree_iff (transport : FrameTransport)
    (registered : transport.writeRegistered = true) (arguments : SendArguments)
    (writeSucceeded : Bool) (buffers : TransmitBuffers) (outputBuffer : Bytes)
    (outputBufferCapacity : Nat)
    (enough : kHeaderSize + kMaxFrameSize + kCrcSize ≤ outputBufferCapacity) :
    EncodersAgree transport arguments writeSucceeded buffers outputBuffer outputBufferCapacity ↔
      arguments.payloadData ≠ none ∨ arguments.payloadSizeBytes = 0 ∨
        kMaxFrameSize < arguments.payloadSizeBytes := by
  simp only [EncodersAgree, send_handed registered]
  by_cases large : kMaxFrameSize < arguments.payloadSizeBytes
  · have refused : buildFrame transport.nextSequenceNumber arguments.payloadData
        arguments.payloadSizeBytes (some outputBuffer) outputBufferCapacity =
          (0, some outputBuffer) := by rw [buildFrame, if_pos large]
    rw [refused, if_neg fun both => by omega]
    simp [large]
  have small := Nat.le_of_not_lt large
  by_cases invalid : arguments.Invalid
  · rw [if_neg fun both => both.1 invalid, buildFrame_of_fits _ _ _ small (by omega)]
    obtain ⟨null, filled⟩ := invalid
    have positive : 0 < kHeaderSize := by decide
    constructor
    · intro agree
      exact absurd rfl (agree.1.mpr (by dsimp only; omega))
    · intro condition
      rcases condition with pointer | nothing | tooLarge
      · exact absurd null pointer
      · omega
      · omega
  · rw [if_pos ⟨invalid, small⟩, buildFrame_arguments _ invalid _ small (by omega)]
    have length := (layFrame_arguments [] 0 invalid).2
    have positive : 0 < kHeaderSize := by decide
    refine ⟨fun _ => ?_, fun _ => ⟨?_, ?_⟩⟩
    · by_contra neither
      rw [not_or, not_or] at neither
      exact invalid ⟨not_not.mp neither.1, Nat.pos_of_ne_zero neither.2.1⟩
    · exact ⟨fun _ => by dsimp only; omega, fun _ => by simp⟩
    · intro frame same
      cases same
      simp only [Option.map_some]
      rw [List.take_left' (by rw [encodeFrame_length, length])]

theorem encoders_agree_single_byte :
    EncodersAgree (new true) (.ofBytes [0xAB]) true ⟨fun _ => .zeros, 0⟩
      (List.replicate kBufferCapacity 0xCD) kBufferCapacity :=
  (encoders_agree_iff (new true) rfl (.ofBytes [0xAB]) true ⟨fun _ => .zeros, 0⟩
    (List.replicate kBufferCapacity 0xCD) kBufferCapacity (Nat.le_refl _)).mpr
      (Or.inl (by simp [SendArguments.ofBytes]))

def nullPayload : SendArguments := ⟨none, 1, by simp⟩

/-- `BuildFrame` sends a byte that the output buffer held. -/
theorem null_payload_is_built :
    ((new true).send nullPayload true ⟨fun _ => .zeros, 0⟩).2.1 = none ∧
    buildFrame 1 nullPayload.payloadData nullPayload.payloadSizeBytes
        (some (List.replicate kBufferCapacity 0xCD)) kBufferCapacity =
      (13, some (encodeFrame 1 [0xCD] ++ List.replicate (kBufferCapacity - 13) 0xCD)) ∧
    ¬ EncodersAgree (new true) nullPayload true ⟨fun _ => .zeros, 0⟩
      (List.replicate kBufferCapacity 0xCD) kBufferCapacity := by
  have refused : ((new true).send nullPayload true ⟨fun _ => .zeros, 0⟩).2.1 = none := rfl
  have built := @buildFrame_null 1 (List.replicate kBufferCapacity 0xCD) 1 kBufferCapacity
    (by decide) (by decide) (Nat.le_of_eq List.length_replicate.symm)
  rw [List.drop_replicate, List.take_replicate, List.drop_replicate] at built
  refine ⟨refused, built, fun agree => ?_⟩
  have filled : (buildFrame 1 none 1 (some (List.replicate kBufferCapacity 0xCD))
      kBufferCapacity).1 ≠ 0 := by rw [built]; decide
  exact agree.1.mpr filled refused

end FrameTransport

end Libcomm
