import Libcomm.Crc32

/-!
# The frame transport

`BuildFrame` and `HandleIncoming`, over byte lists.  A pointer argument is an
`Option`: `none` is the null pointer, `some` the bytes that can be read there.
Arithmetic in `std::size_t` is taken modulo the width of the target, because
the wire's 32-bit length field enters it unchecked.  `memcpy` of an
`EndianScalar` value is the little-endian encoding.
-/

set_option autoImplicit false

namespace Libcomm

/-! ## `std::size_t` -/

/-- The widths of `std::size_t` on the microcontrollers and on the desktop. -/
inductive SizeType where
  | bits32
  | bits64
  deriving DecidableEq, Repr

namespace SizeType

def modulus : SizeType → Nat
  | bits32 => 2 ^ 32
  | bits64 => 2 ^ 64

def add (sizeType : SizeType) (left right : Nat) : Nat := (left + right) % sizeType.modulus

def sub (sizeType : SizeType) (left right : Nat) : Nat :=
  (left + (sizeType.modulus - right % sizeType.modulus)) % sizeType.modulus

theorem modulus_ge (sizeType : SizeType) : 2 ^ 32 ≤ sizeType.modulus := by
  cases sizeType <;> decide

theorem add_of_lt (sizeType : SizeType) {left right : Nat}
    (fits : left + right < 2 ^ 32) : sizeType.add left right = left + right :=
  Nat.mod_eq_of_lt (Nat.lt_of_lt_of_le fits sizeType.modulus_ge)

theorem sub_of_le (sizeType : SizeType) {left right : Nat}
    (ordered : right ≤ left) (fits : left < 2 ^ 32) : sizeType.sub left right = left - right := by
  have bound := sizeType.modulus_ge
  rw [sub, Nat.mod_eq_of_lt (by omega : right < sizeType.modulus),
    show left + (sizeType.modulus - right) = left - right + sizeType.modulus by omega,
    Nat.add_mod_right, Nat.mod_eq_of_lt (by omega)]

end SizeType

/-! ## Memory access -/

/-- `memcpy` of `bytes` to an offset of a buffer. -/
def store (buffer : Bytes) (offset : Nat) (bytes : Bytes) : Bytes :=
  buffer.take offset ++ bytes ++ buffer.drop (offset + bytes.length)

def loadUInt32 (data : Bytes) (offset : Nat) : UInt32 :=
  UInt32.ofNat (LittleEndian.decode ((data.drop offset).take 4))

/-! ## Constants -/

def kHeaderSize : Nat := 8
def kCrcSize : Nat := 4
def kMaxFrameSize : Nat := 4096
def kProtocolVersion : UInt8 := 1

inductive FrameType where
  | data
  deriving DecidableEq, Repr

def FrameType.toByte : FrameType → UInt8
  | .data => 0

/-! ## Encoding -/

/-- The writes that lay a frame out in a buffer, shared by `BuildFrame` and
`TransmitFrame`.  A null payload leaves the payload bytes as they were. -/
def layFrame (buffer : Bytes) (type : FrameType) (sequenceNumber : UInt16)
    (payload : Option Bytes) (payloadSize : Nat) : Bytes :=
  let totalSize := kHeaderSize + payloadSize + kCrcSize
  let buffer := store buffer 0 [kProtocolVersion]
  let buffer := store buffer 1 [type.toByte]
  let buffer := store buffer 2 (LittleEndian.encode 2 sequenceNumber.toNat)
  let buffer := store buffer 4 (LittleEndian.encode 4 payloadSize)
  let buffer :=
    match payload with
    | some bytes =>
        if payloadSize > 0 then store buffer kHeaderSize (bytes.take payloadSize) else buffer
    | none => buffer
  let crc := computeCrc32 buffer (totalSize - kCrcSize)
  store buffer (totalSize - kCrcSize) (LittleEndian.encode 4 crc.toNat)

/-- `BuildFrame`: the returned size and the output buffer afterwards.  The size
check comes first, so none of its sums can wrap. -/
def buildFrame (sequenceNumber : UInt16) (payload : Option Bytes) (payloadSize : Nat)
    (outputBuffer : Option Bytes) (outputBufferCapacity : Nat) : Nat × Option Bytes :=
  if payloadSize > kMaxFrameSize then (0, outputBuffer)
  else
    let totalSize := kHeaderSize + payloadSize + kCrcSize
    if totalSize > outputBufferCapacity then (0, outputBuffer)
    else
      match outputBuffer with
      | none => (0, none)
      | some buffer => (totalSize, some (layFrame buffer .data sequenceNumber payload payloadSize))

/-! ## Decoding -/

abbrev DataHandler (State : Type) := Bytes → State → Bool × State

/-- `kHeaderSize + payloadSize + kCrcSize` as the target computes it. -/
def expectedTotalSizeBytes (sizeType : SizeType) (payloadSizeBytes : UInt32) : Nat :=
  sizeType.add (sizeType.add kHeaderSize payloadSizeBytes.toNat) kCrcSize

/-- `HandleIncoming`.  The sequence number is only logged there and is not read
here. -/
def handleIncoming {State : Type} (sizeType : SizeType) (receivedData : Option Bytes)
    (receivedSizeBytes : Nat) (dataHandler : Option (DataHandler State)) (state : State) :
    Bool × State :=
  match receivedData with
  | none => (false, state)
  | some data =>
      if receivedSizeBytes < kHeaderSize + kCrcSize then (false, state)
      else
        let receivedProtocolVersion := data.getD 0 0
        let receivedFrameType := data.getD 1 0
        let receivedPayloadSizeBytes := loadUInt32 data 4
        let expected := expectedTotalSizeBytes sizeType receivedPayloadSizeBytes
        if ¬ (receivedProtocolVersion = kProtocolVersion ∧ receivedSizeBytes = expected) then
          (false, state)
        else
          let receivedCrc32Value := loadUInt32 data (sizeType.sub expected kCrcSize)
          let computedCrc32Value := computeCrc32 data (sizeType.sub expected kCrcSize)
          if receivedCrc32Value ≠ computedCrc32Value then (false, state)
          else if receivedFrameType ≠ FrameType.data.toByte then (false, state)
          else
            match dataHandler with
            | some handler =>
                handler ((data.drop kHeaderSize).take receivedPayloadSizeBytes.toNat) state
            | none => (false, state)

def recording {State : Type} (handler : DataHandler State) : DataHandler (State × List Bytes) :=
  fun payload (state, invocations) =>
    let (accepted, next) := handler payload state
    (accepted, next, invocations ++ [payload])

end Libcomm
