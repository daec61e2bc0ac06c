import Libcomm.FrameTransport
import Mathlib.Tactic.Set

/-!
# The frame format

What the encoder and the decoder agree on: `encodeFrame` lists the bytes of a
frame, `ValidFrame` says that a byte string starts with one.  Both directions of
the source code are characterised by these two, for every buffer content and
both widths of `std::size_t`.
-/

set_option autoImplicit false

namespace Libcomm

/-! ## Frames as byte strings -/

def frameHeader (sequenceNumber : UInt16) (payloadSize : Nat) : Bytes :=
  [kProtocolVersion, FrameType.data.toByte] ++
    (LittleEndian.encode 2 sequenceNumber.toNat ++ LittleEndian.encode 4 payloadSize)

/-- The part of a frame that its checksum covers. -/
def frameMessage (sequenceNumber : UInt16) (payload : Bytes) : Bytes :=
  frameHeader sequenceNumber payload.length ++ payload

def encodeFrame (sequenceNumber : UInt16) (payload : Bytes) : Bytes :=
  let message := frameMessage sequenceNumber payload
  message ++ LittleEndian.encode 4 (computeCrc32 message message.length).toNat

/-- The length field, read whether or not the string is a frame. -/
def announcedSize (bytes : Bytes) : Nat := (loadUInt32 bytes 4).toNat

def frameSize (bytes : Bytes) : Nat := kHeaderSize + announcedSize bytes + kCrcSize

def framePayload (bytes : Bytes) : Bytes := (bytes.drop kHeaderSize).take (announcedSize bytes)

structure ValidFrame (bytes : Bytes) : Prop where
  version : bytes.getD 0 0 = kProtocolVersion
  type : bytes.getD 1 0 = FrameType.data.toByte
  size_le : announcedSize bytes ≤ kMaxFrameSize
  complete : frameSize bytes ≤ bytes.length
  checksum : loadUInt32 bytes (kHeaderSize + announcedSize bytes) =
    computeCrc32 bytes (kHeaderSize + announcedSize bytes)

theorem validFrame_iff (bytes : Bytes) :
    ValidFrame bytes ↔
      bytes.getD 0 0 = kProtocolVersion ∧ bytes.getD 1 0 = FrameType.data.toByte ∧
      announcedSize bytes ≤ kMaxFrameSize ∧ frameSize bytes ≤ bytes.length ∧
      loadUInt32 bytes (kHeaderSize + announcedSize bytes) =
        computeCrc32 bytes (kHeaderSize + announcedSize bytes) := by
  constructor
  · rintro ⟨version, type, small, complete, checksum⟩
    exact ⟨version, type, small, complete, checksum⟩
  · rintro ⟨version, type, small, complete, checksum⟩
    exact ⟨version, type, small, complete, checksum⟩

instance validFrameDecidable (bytes : Bytes) : Decidable (ValidFrame bytes) :=
  decidable_of_iff _ (validFrame_iff bytes).symm

/-! ## Reading a prefix -/

theorem getD_take_of_lt (bytes : Bytes) {count index : Nat} (inside : index < count) :
    (bytes.take count).getD index 0 = bytes.getD index 0 := by
  simp only [List.getD_eq_getElem?_getD, List.getElem?_take, if_pos inside]

theorem loadUInt32_take (bytes : Bytes) {count offset : Nat} (inside : offset + 4 ≤ count) :
    loadUInt32 (bytes.take count) offset = loadUInt32 bytes offset := by
  rw [loadUInt32, List.drop_take, List.take_take, Nat.min_eq_left (by omega), loadUInt32]

theorem computeCrc32_take (bytes : Bytes) {count length : Nat} (inside : length ≤ count) :
    computeCrc32 (bytes.take count) length = computeCrc32 bytes length := by
  rw [computeCrc32, List.take_take, Nat.min_eq_left inside, computeCrc32]

theorem announcedSize_take (bytes : Bytes) {count : Nat} (header : kHeaderSize ≤ count) :
    announcedSize (bytes.take count) = announcedSize bytes := by
  rw [announcedSize, loadUInt32_take bytes header, announcedSize]

theorem frameSize_take (bytes : Bytes) {count : Nat} (header : kHeaderSize ≤ count) :
    frameSize (bytes.take count) = frameSize bytes := by
  rw [frameSize, announcedSize_take bytes header, frameSize]

/-- A frame is recognised from its own bytes alone. -/
theorem validFrame_take (bytes : Bytes) {count : Nat} (whole : frameSize bytes ≤ count)
    (inside : count ≤ bytes.length) :
    ValidFrame (bytes.take count) ↔ ValidFrame bytes := by
  have header : kHeaderSize ≤ count := by
    simp only [frameSize, kHeaderSize] at whole ⊢
    omega
  have message : kHeaderSize + announcedSize bytes + 4 ≤ count := whole
  have headerPos : 1 < count := by
    simp only [kHeaderSize] at header
    omega
  rw [validFrame_iff, validFrame_iff, frameSize_take bytes header,
    announcedSize_take bytes header, loadUInt32_take bytes message,
    computeCrc32_take bytes (by omega), getD_take_of_lt bytes (by omega),
    getD_take_of_lt bytes headerPos, List.length_take, Nat.min_eq_left inside]
  constructor
  · rintro ⟨version, type, small, _, checksum⟩
    exact ⟨version, type, small, by omega, checksum⟩
  · rintro ⟨version, type, small, _, checksum⟩
    exact ⟨version, type, small, whole, checksum⟩

theorem framePayload_take (bytes : Bytes) {count : Nat} (whole : frameSize bytes ≤ count) :
    framePayload (bytes.take count) = framePayload bytes := by
  have header : kHeaderSize ≤ count := by
    simp only [frameSize, kHeaderSize] at whole ⊢
    omega
  rw [framePayload, announcedSize_take bytes header, List.drop_take, List.take_take, framePayload,
    Nat.min_eq_left]
  simp only [frameSize] at whole
  omega

theorem announcedSize_append (front back : Bytes) (header : kHeaderSize ≤ front.length) :
    announcedSize (front ++ back) = announcedSize front := by
  rw [← announcedSize_take (front ++ back) header, List.take_left]

theorem frameSize_append (front back : Bytes) (header : kHeaderSize ≤ front.length) :
    frameSize (front ++ back) = frameSize front := by
  rw [frameSize, announcedSize_append front back header, frameSize]

theorem frameSize_ge (bytes : Bytes) : kHeaderSize + kCrcSize ≤ frameSize bytes := by
  simp only [frameSize]
  omega

theorem validFrame_append (front back : Bytes) (whole : frameSize front ≤ front.length) :
    ValidFrame (front ++ back) ↔ ValidFrame front := by
  have header : kHeaderSize ≤ front.length := by
    have := frameSize_ge front
    omega
  rw [← @validFrame_take (front ++ back) front.length
    (by rwa [frameSize_append front back header]) (by simp), List.take_left]

theorem framePayload_append (front back : Bytes) (whole : frameSize front ≤ front.length) :
    framePayload (front ++ back) = framePayload front := by
  have header : kHeaderSize ≤ front.length := by
    have := frameSize_ge front
    omega
  rw [← @framePayload_take (front ++ back) front.length
    (by rwa [frameSize_append front back header]), List.take_left]

/-! ## The encoder -/

theorem store_append (front back bytes : Bytes) {offset : Nat} (at_end : offset = front.length) :
    store (front ++ back) offset bytes = front ++ (bytes ++ back.drop bytes.length) := by
  subst at_end
  rw [store, List.take_left, List.drop_append, List.append_assoc]
  simp

@[simp] theorem frameHeader_length (sequenceNumber : UInt16) (payloadSize : Nat) :
    (frameHeader sequenceNumber payloadSize).length = kHeaderSize := by
  simp [frameHeader, kHeaderSize]

@[simp] theorem frameMessage_length (sequenceNumber : UInt16) (payload : Bytes) :
    (frameMessage sequenceNumber payload).length = kHeaderSize + payload.length := by
  simp [frameMessage]

@[simp] theorem encodeFrame_length (sequenceNumber : UInt16) (payload : Bytes) :
    (encodeFrame sequenceNumber payload).length = kHeaderSize + payload.length + kCrcSize := by
  simp [encodeFrame, kCrcSize]

theorem store_header (buffer : Bytes) (sequenceNumber : UInt16) (payloadSize : Nat) :
    store
        (store
          (store (store buffer 0 [kProtocolVersion]) 1 [FrameType.data.toByte])
          2 (LittleEndian.encode 2 sequenceNumber.toNat))
        4 (LittleEndian.encode 4 payloadSize) =
      frameHeader sequenceNumber payloadSize ++ buffer.drop kHeaderSize := by
  have version : store buffer 0 [kProtocolVersion] = [kProtocolVersion] ++ buffer.drop 1 :=
    store_append [] buffer [kProtocolVersion] rfl
  rw [version, @store_append _ _ _ 1 rfl, ← List.append_assoc,
    @store_append _ _ _ 2 rfl, ← List.append_assoc,
    @store_append _ _ _ 4 (by simp), frameHeader]
  simp [kHeaderSize]

/-- The buffer writes leave exactly the frame's bytes, whatever the buffer held. -/
theorem layFrame_eq (buffer : Bytes) (sequenceNumber : UInt16) (payload : Bytes) :
    layFrame buffer .data sequenceNumber (some payload) payload.length =
      encodeFrame sequenceNumber payload ++
        buffer.drop (kHeaderSize + payload.length + kCrcSize) := by
  set message := frameMessage sequenceNumber payload with messageDef
  have messageLength : message.length = kHeaderSize + payload.length + kCrcSize - kCrcSize := by
    rw [messageDef, frameMessage_length]
    omega
  have written :
      (if payload.length > 0 then
          store (frameHeader sequenceNumber payload.length ++ buffer.drop kHeaderSize)
            kHeaderSize (payload.take payload.length)
        else frameHeader sequenceNumber payload.length ++ buffer.drop kHeaderSize) =
        message ++ buffer.drop (kHeaderSize + payload.length) := by
    by_cases filled : payload.length > 0
    · rw [if_pos filled, List.take_length, store_append _ _ _ (by simp), List.drop_drop,
        messageDef, frameMessage, List.append_assoc]
    · have empty : payload = [] := List.length_eq_zero_iff.mp (by omega)
      rw [if_neg filled, messageDef, frameMessage, empty]
      simp
  simp only [layFrame, store_header, written]
  rw [store_append _ _ _ messageLength.symm, ← messageLength,
    ← computeCrc32_take _ (Nat.le_refl message.length), List.take_left, List.drop_drop,
    LittleEndian.encode_length, encodeFrame, ← messageDef, List.append_assoc, kCrcSize]

theorem buildFrame_eq (sequenceNumber : UInt16) (payload buffer : Bytes) (capacity : Nat)
    (small : payload.length ≤ kMaxFrameSize)
    (enough : kHeaderSize + payload.length + kCrcSize ≤ capacity) :
    buildFrame sequenceNumber (some payload) payload.length (some buffer) capacity =
      (kHeaderSize + payload.length + kCrcSize,
        some (encodeFrame sequenceNumber payload ++
          buffer.drop (kHeaderSize + payload.length + kCrcSize))) := by
  rw [buildFrame, if_neg (by omega), if_neg (by omega), ← layFrame_eq]

/-! ## Encoded frames are valid -/

theorem loadUInt32_at (front back : Bytes) (value : UInt32) {offset : Nat}
    (at_end : offset = front.length) :
    loadUInt32 (front ++ (LittleEndian.encode 4 value.toNat ++ back)) offset = value := by
  have decoded : LittleEndian.decode (LittleEndian.encode 4 value.toNat) = value.toNat :=
    LittleEndian.decode_encode_of_lt 4 value.toNat value.toNat_lt
  have field : (LittleEndian.encode 4 value.toNat ++ back).take 4 =
      LittleEndian.encode 4 value.toNat :=
    List.take_left' (by simp)
  rw [loadUInt32, at_end, List.drop_left, field, decoded, UInt32.ofNat_toNat]

theorem announcedSize_encodeFrame (sequenceNumber : UInt16) (payload : Bytes)
    (small : payload.length ≤ kMaxFrameSize) :
    announcedSize (encodeFrame sequenceNumber payload) = payload.length := by
  have fits : (UInt32.ofNat payload.length).toNat = payload.length :=
    UInt32.toNat_ofNat_of_lt' (by
      simp only [kMaxFrameSize, UInt32.size] at small ⊢
      omega)
  have split : encodeFrame sequenceNumber payload =
      ([kProtocolVersion, FrameType.data.toByte] ++ LittleEndian.encode 2 sequenceNumber.toNat) ++
        (LittleEndian.encode 4 (UInt32.ofNat payload.length).toNat ++
          (payload ++ LittleEndian.encode 4
            (computeCrc32 (frameMessage sequenceNumber payload)
              (frameMessage sequenceNumber payload).length).toNat)) := by
    rw [fits]
    simp [encodeFrame, frameMessage, frameHeader]
  rw [announcedSize, split, loadUInt32_at _ _ _ (by simp), fits]

theorem frameSize_encodeFrame (sequenceNumber : UInt16) (payload : Bytes)
    (small : payload.length ≤ kMaxFrameSize) :
    frameSize (encodeFrame sequenceNumber payload) =
      (encodeFrame sequenceNumber payload).length := by
  rw [frameSize, announcedSize_encodeFrame _ _ small, encodeFrame_length]

theorem framePayload_encodeFrame (sequenceNumber : UInt16) (payload : Bytes)
    (small : payload.length ≤ kMaxFrameSize) :
    framePayload (encodeFrame sequenceNumber payload) = payload := by
  rw [framePayload, announcedSize_encodeFrame _ _ small, encodeFrame, frameMessage,
    List.append_assoc, List.drop_left' (by simp), List.take_left]

theorem validFrame_encodeFrame (sequenceNumber : UInt16) (payload : Bytes)
    (small : payload.length ≤ kMaxFrameSize) :
    ValidFrame (encodeFrame sequenceNumber payload) := by
  have size := announcedSize_encodeFrame sequenceNumber payload small
  refine ⟨rfl, rfl, by rw [size]; exact small,
    Nat.le_of_eq (frameSize_encodeFrame sequenceNumber payload small), ?_⟩
  set message := frameMessage sequenceNumber payload with messageDef
  have length : kHeaderSize + payload.length = message.length :=
    (frameMessage_length sequenceNumber payload).symm
  have stored : loadUInt32 (encodeFrame sequenceNumber payload) message.length =
      computeCrc32 message message.length := by
    have := loadUInt32_at message [] (computeCrc32 message message.length) rfl
    rwa [List.append_nil] at this
  rw [size, length, stored, encodeFrame, ← messageDef,
    ← computeCrc32_take (message ++ _) (Nat.le_refl message.length), List.take_left]

/-! ## Valid frames are encoded -/

theorem encode_loaded (field : Bytes) (length : field.length = 4) :
    LittleEndian.encode 4 (UInt32.ofNat (LittleEndian.decode field)).toNat = field := by
  have bound := LittleEndian.decode_lt field
  rw [length] at bound
  rw [UInt32.toNat_ofNat_of_lt' bound, LittleEndian.encode_decode_of_length _ length]

theorem take_header (bytes : Bytes) (long : kHeaderSize ≤ bytes.length)
    (version : bytes.getD 0 0 = kProtocolVersion) (type : bytes.getD 1 0 = FrameType.data.toByte) :
    bytes.take kHeaderSize =
      frameHeader (UInt16.ofNat (LittleEndian.decode ((bytes.drop 2).take 2)))
        (announcedSize bytes) := by
  simp only [kHeaderSize] at long
  have sequence : LittleEndian.encode 2
      (UInt16.ofNat (LittleEndian.decode ((bytes.drop 2).take 2))).toNat =
        (bytes.drop 2).take 2 := by
    have length : ((bytes.drop 2).take 2).length = 2 := by simp; omega
    have bound := LittleEndian.decode_lt ((bytes.drop 2).take 2)
    rw [length] at bound
    rw [UInt16.toNat_ofNat_of_lt' bound]
    exact LittleEndian.encode_decode_of_length _ length
  have size : LittleEndian.encode 4 (announcedSize bytes) = (bytes.drop 4).take 4 :=
    encode_loaded _ (by simp; omega)
  rw [frameHeader, sequence, size, ← version, ← type]
  match bytes, long with
  | a :: b :: c :: d :: e :: f :: g :: h :: rest, _ => rfl

/-- A valid frame is the encoding of its payload, followed by anything. -/
theorem validFrame_eq_encodeFrame (bytes : Bytes) (valid : ValidFrame bytes) :
    ∃ sequenceNumber, bytes =
      encodeFrame sequenceNumber (framePayload bytes) ++ bytes.drop (frameSize bytes) := by
  have whole : kHeaderSize + announcedSize bytes + kCrcSize ≤ bytes.length := valid.complete
  have payloadLength : (framePayload bytes).length = announcedSize bytes := by
    simp only [framePayload, List.length_take, List.length_drop]
    omega
  have header := take_header bytes (by omega) valid.version valid.type
  set sequenceNumber := UInt16.ofNat (LittleEndian.decode ((bytes.drop 2).take 2))
  have message : frameMessage sequenceNumber (framePayload bytes) =
      bytes.take (kHeaderSize + announcedSize bytes) := by
    rw [frameMessage, payloadLength, ← header, framePayload, List.take_add]
  have checksum : LittleEndian.encode 4
      (computeCrc32 bytes (kHeaderSize + announcedSize bytes)).toNat =
        (bytes.drop (kHeaderSize + announcedSize bytes)).take kCrcSize := by
    rw [← valid.checksum]
    apply encode_loaded
    simp only [List.length_take, List.length_drop, kCrcSize] at whole ⊢
    omega
  refine ⟨sequenceNumber, ?_⟩
  have messageLength : (bytes.take (kHeaderSize + announcedSize bytes)).length =
      kHeaderSize + announcedSize bytes := by
    rw [List.length_take]
    omega
  rw [encodeFrame, message, messageLength, computeCrc32_take bytes (Nat.le_refl _), checksum,
    ← List.take_add, frameSize, List.take_append_drop]

theorem encodeFrame_injective (first second : UInt16) (left right : Bytes)
    (leftSmall : left.length ≤ kMaxFrameSize) (rightSmall : right.length ≤ kMaxFrameSize)
    (same : encodeFrame first left = encodeFrame second right) :
    first = second ∧ left = right := by
  have payloads : left = right := by
    rw [← framePayload_encodeFrame first left leftSmall, same,
      framePayload_encodeFrame second right rightSmall]
  refine ⟨?_, payloads⟩
  have field (sequenceNumber : UInt16) (payload : Bytes) :
      LittleEndian.decode (((encodeFrame sequenceNumber payload).drop 2).take 2) =
        sequenceNumber.toNat :=
    LittleEndian.decode_encode_of_lt 2 sequenceNumber.toNat sequenceNumber.toNat_lt
  apply UInt16.toNat_inj.mp
  rw [← field first left, ← field second right, same]

/-! ## The decoder -/

/-- A length field whose frame size wraps is announced by a size no frame has. -/
theorem expectedTotalSizeBytes_cases (sizeType : SizeType) (payloadSizeBytes : UInt32) :
    expectedTotalSizeBytes sizeType payloadSizeBytes =
        kHeaderSize + payloadSizeBytes.toNat + kCrcSize ∨
      (sizeType = .bits32 ∧ 2 ^ 32 ≤ kHeaderSize + payloadSizeBytes.toNat + kCrcSize ∧
        expectedTotalSizeBytes sizeType payloadSizeBytes =
          kHeaderSize + payloadSizeBytes.toNat + kCrcSize - 2 ^ 32) := by
  have bound := payloadSizeBytes.toNat_lt
  simp only [expectedTotalSizeBytes, SizeType.add, Nat.mod_add_mod]
  cases sizeType with
  | bits32 =>
      simp only [SizeType.modulus, kHeaderSize, kCrcSize, true_and]
      omega
  | bits64 =>
      left
      simp only [SizeType.modulus, kHeaderSize, kCrcSize]
      omega

theorem expectedTotalSizeBytes_eq_iff (sizeType : SizeType) (data : Bytes) (size : Nat)
    (atLeast : kHeaderSize + kCrcSize ≤ size) (small : size < 2 ^ 32) :
    size = expectedTotalSizeBytes sizeType (loadUInt32 data 4) ↔ frameSize data = size := by
  have bound := (loadUInt32 data 4).toNat_lt
  simp only [frameSize, announcedSize]
  rcases expectedTotalSizeBytes_cases sizeType (loadUInt32 data 4) with exact | ⟨_, wraps, exact⟩
  · rw [exact]
    exact eq_comm
  · rw [exact]
    simp only [kHeaderSize, kCrcSize] at atLeast wraps ⊢
    omega

/-- **The decoder accepts exactly the valid frames of the given size.** -/
theorem handleIncoming_eq {State : Type} (sizeType : SizeType) (data : Bytes) (size : Nat)
    (handler : DataHandler State) (state : State) (readable : size ≤ data.length)
    (small : size ≤ kHeaderSize + kMaxFrameSize + kCrcSize) :
    handleIncoming sizeType (some data) size (some handler) state =
      if ValidFrame data ∧ frameSize data = size then handler (framePayload data) state
      else (false, state) := by
  by_cases atLeast : kHeaderSize + kCrcSize ≤ size
  · have fits : size < 2 ^ 32 := by
      simp only [kHeaderSize, kMaxFrameSize, kCrcSize] at small
      omega
    have sizes := expectedTotalSizeBytes_eq_iff sizeType data size atLeast fits
    have tooShort : ¬ size < kHeaderSize + kCrcSize := by omega
    simp only [handleIncoming, if_neg tooShort]
    by_cases sizeMatches : frameSize data = size
    · have expected := sizes.mpr sizeMatches
      have crcOffset : sizeType.sub size kCrcSize = kHeaderSize + announcedSize data := by
        rw [sizeType.sub_of_le (by omega) fits, ← sizeMatches, frameSize]
        omega
      have announced : announcedSize data ≤ kMaxFrameSize := by
        simp only [frameSize] at sizeMatches
        omega
      rw [← expected, crcOffset]
      by_cases version : data.getD 0 0 = kProtocolVersion
      · rw [if_neg (not_not.mpr ⟨version, rfl⟩)]
        by_cases checksum : loadUInt32 data (kHeaderSize + announcedSize data) =
            computeCrc32 data (kHeaderSize + announcedSize data)
        · rw [if_neg (not_not.mpr checksum)]
          by_cases type : data.getD 1 0 = FrameType.data.toByte
          · have valid : ValidFrame data :=
              ⟨version, type, announced, by omega, checksum⟩
            rw [if_neg (not_not.mpr type), if_pos ⟨valid, sizeMatches⟩]
            rfl
          · rw [if_pos type, if_neg fun accepted => type accepted.1.type]
        · rw [if_pos checksum, if_neg fun accepted => checksum accepted.1.checksum]
      · rw [if_pos fun checks => version checks.1,
          if_neg fun accepted => version accepted.1.version]
    · have rejected : ¬ (data.getD 0 0 = kProtocolVersion ∧
          size = expectedTotalSizeBytes sizeType (loadUInt32 data 4)) :=
        fun checks => sizeMatches (sizes.mp checks.2)
      rw [if_pos rejected, if_neg fun accepted => sizeMatches accepted.2]
  · have rejected : ¬ (ValidFrame data ∧ frameSize data = size) := by
      rintro ⟨_, sizeMatches⟩
      have := frameSize_ge data
      omega
    rw [if_neg rejected]
    simp only [handleIncoming, if_pos (show size < kHeaderSize + kCrcSize by omega)]

/-! ## Encoder and decoder are inverse -/

/-- The frame is what `BuildFrame` leaves in a buffer of sufficient capacity. -/
def IsBuilt (sequenceNumber : UInt16) (payload frame : Bytes) : Prop :=
  ∃ buffer output : Bytes, ∃ size : Nat,
    kHeaderSize + payload.length + kCrcSize ≤ buffer.length ∧
    buildFrame sequenceNumber (some payload) payload.length (some buffer) buffer.length =
      (size, some output) ∧
    output.take size = frame

theorem isBuilt_iff (sequenceNumber : UInt16) (payload frame : Bytes)
    (small : payload.length ≤ kMaxFrameSize) :
    IsBuilt sequenceNumber payload frame ↔ frame = encodeFrame sequenceNumber payload := by
  have taken (buffer : Bytes) :
      (encodeFrame sequenceNumber payload ++ buffer).take
          (kHeaderSize + payload.length + kCrcSize) = encodeFrame sequenceNumber payload :=
    List.take_left' (encodeFrame_length sequenceNumber payload)
  constructor
  · rintro ⟨buffer, output, size, enough, built, rfl⟩
    rw [buildFrame_eq _ _ _ _ small enough] at built
    cases built
    exact taken _
  · rintro rfl
    let buffer : Bytes := List.replicate (kHeaderSize + payload.length + kCrcSize) 0
    have enough : kHeaderSize + payload.length + kCrcSize ≤ buffer.length := by simp [buffer]
    exact ⟨buffer, _, _, enough, buildFrame_eq _ _ _ _ small enough, taken _⟩

theorem validFrame_whole_iff (bytes : Bytes) :
    (ValidFrame bytes ∧ frameSize bytes = bytes.length) ↔
      ∃ sequenceNumber payload, payload.length ≤ kMaxFrameSize ∧
        bytes = encodeFrame sequenceNumber payload := by
  constructor
  · rintro ⟨valid, whole⟩
    obtain ⟨sequenceNumber, split⟩ := validFrame_eq_encodeFrame bytes valid
    rw [whole, List.drop_length, List.append_nil] at split
    refine ⟨sequenceNumber, framePayload bytes, ?_, split⟩
    exact Nat.le_trans (List.length_take_le _ _) valid.size_le
  · rintro ⟨sequenceNumber, payload, small, rfl⟩
    exact ⟨validFrame_encodeFrame sequenceNumber payload small,
      frameSize_encodeFrame sequenceNumber payload small⟩

/-- **Round trip, both ways.**  The decoder invokes its handler on exactly the
outputs of the encoder, once, with the payload that was encoded. -/
theorem handleIncoming_inverts_buildFrame {State : Type} (sizeType : SizeType) (data : Bytes)
    (handler : DataHandler State) (state : State)
    (short : data.length ≤ kHeaderSize + kMaxFrameSize + kCrcSize) :
    let outcome :=
      handleIncoming sizeType (some data) data.length (some (recording handler)) (state, [])
    (outcome.2.2 ≠ [] ↔ ∃ sequenceNumber payload,
      payload.length ≤ kMaxFrameSize ∧ IsBuilt sequenceNumber payload data) ∧
    (∀ sequenceNumber payload, payload.length ≤ kMaxFrameSize →
      IsBuilt sequenceNumber payload data →
      (∀ otherNumber otherPayload, otherPayload.length ≤ kMaxFrameSize →
        IsBuilt otherNumber otherPayload data →
          otherNumber = sequenceNumber ∧ otherPayload = payload) ∧
      outcome = ((handler payload state).1, (handler payload state).2, [payload])) ∧
    ((¬ ∃ sequenceNumber payload,
      payload.length ≤ kMaxFrameSize ∧ IsBuilt sequenceNumber payload data) →
      outcome = (false, state, [])) := by
  intro outcome
  have built : (∃ sequenceNumber payload,
      payload.length ≤ kMaxFrameSize ∧ IsBuilt sequenceNumber payload data) ↔
      ValidFrame data ∧ frameSize data = data.length := by
    rw [validFrame_whole_iff]
    refine exists_congr fun sequenceNumber => exists_congr fun payload => ?_
    exact and_congr_right (isBuilt_iff sequenceNumber payload data)
  have decoded : outcome =
      if ValidFrame data ∧ frameSize data = data.length then
        recording handler (framePayload data) (state, [])
      else (false, state, []) :=
    handleIncoming_eq sizeType data data.length (recording handler) (state, [])
      (Nat.le_refl _) short
  refine ⟨?_, ?_, ?_⟩
  · rw [built, decoded]
    by_cases accepted : ValidFrame data ∧ frameSize data = data.length
    · simp [accepted, recording]
    · rw [if_neg accepted]
      simp [accepted]
  · intro sequenceNumber payload small isBuilt
    have encoded := (isBuilt_iff sequenceNumber payload data small).mp isBuilt
    constructor
    · intro otherNumber otherPayload otherSmall otherBuilt
      have otherEncoded := (isBuilt_iff otherNumber otherPayload data otherSmall).mp otherBuilt
      exact encodeFrame_injective _ _ _ _ otherSmall small (otherEncoded ▸ encoded)
    · rw [decoded, if_pos (built.mp ⟨sequenceNumber, payload, small, isBuilt⟩), encoded,
        framePayload_encodeFrame sequenceNumber payload small]
      rfl
  · intro none
    rw [decoded, if_neg fun accepted => none (built.mpr accepted)]

theorem handleIncoming_inverts_buildFrame_single_byte :
    handleIncoming .bits32 (some (encodeFrame 7 [0xAB])) (encodeFrame 7 [0xAB]).length
        (some (recording fun payload count => (true, count + payload.length))) (2, []) =
      (true, 3, [[0xAB]]) :=
  ((handleIncoming_inverts_buildFrame .bits32 (encodeFrame 7 [0xAB])
    (fun payload count => (true, count + payload.length)) 2
    (by rw [encodeFrame_length]; decide)).2.1 7 [0xAB] (by decide)
      ((isBuilt_iff 7 [0xAB] _ (by decide)).mpr rfl)).2

end Libcomm
