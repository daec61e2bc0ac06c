import Libcomm.Endpoints

/-!
# What receiving reads

`HandleIncoming` with every byte it reads on the way.  The transport stays inside the
received data on both targets: a size that wraps around is no received size.  What is
left is the identifier that an endpoint looks for behind a payload too short for it.
That test takes the checksum for message bytes, and where the checksum happens to
begin the identifier it goes on past the received data.
-/

set_option autoImplicit false

namespace Libcomm

open ReadTrace

/-! ## The receiver, read for read -/

def readUInt32 (data : Memory) (offset : Nat) : Reading UInt32 := do
  let bytes ← Reading.copy data offset 4
  pure (UInt32.ofNat (LittleEndian.decode bytes))

def readCrc32 (data : Memory) (length : Nat) : Reading UInt32 := do
  let crc32Accumulator ← Reading.foldBytes crc32Step data 0 length 0xFFFFFFFF
  pure (crc32Accumulator ^^^ 0xFFFFFFFF)

/-- `HandleIncoming` from the checksum on, for a total size that has been checked. -/
def readChecked (data : Memory) (crcOffset : Nat) (receivedFrameType : UInt8)
    (receivedPayloadSizeBytes : UInt32) (dataHandler : Option (Memory → Nat → Reading Bool)) :
    Reading Bool := do
  let receivedCrc32Value ← readUInt32 data crcOffset
  let computedCrc32Value ← readCrc32 data crcOffset
  if receivedCrc32Value ≠ computedCrc32Value then pure false
  else if receivedFrameType ≠ FrameType.data.toByte then pure false
  else
    match dataHandler with
    | some handler =>
        (handler (payloadData data) receivedPayloadSizeBytes.toNat).behind kHeaderSize
    | none => pure false

/-- `HandleIncoming`; the handler is given a pointer behind the header. -/
def readIncoming (sizeType : SizeType) (receivedData : Option Memory) (receivedSizeBytes : Nat)
    (dataHandler : Option (Memory → Nat → Reading Bool)) : Reading Bool :=
  match receivedData with
  | none => pure false
  | some data =>
      if receivedSizeBytes < kHeaderSize + kCrcSize then pure false
      else do
        let receivedProtocolVersion ← Reading.load data 0
        let receivedFrameType ← Reading.load data 1
        -- the sequence number is for the log only
        let _ ← Reading.copy data 2 2
        let receivedPayloadSizeBytes ← readUInt32 data 4
        let expected := expectedTotalSizeBytes sizeType receivedPayloadSizeBytes
        if ¬ (receivedProtocolVersion = kProtocolVersion ∧ receivedSizeBytes = expected) then
          pure false
        else
          readChecked data (sizeType.sub expected kCrcSize) receivedFrameType
            receivedPayloadSizeBytes dataHandler

/-! ## Against the received bytes -/

def received (data : Memory) (size : Nat) : Bytes := (List.range size).map data

@[simp] theorem received_length (data : Memory) (size : Nat) :
    (received data size).length = size := by
  rw [received, List.length_map, List.length_range]

theorem received_getD (data : Memory) {size offset : Nat} (inside : offset < size) :
    (received data size).getD offset 0 = data offset := by
  rw [List.getD_eq_getElem _ _ (by rwa [received_length])]
  simp only [received, List.getElem_map, List.getElem_range]

theorem received_stretch (data : Memory) {size offset count : Nat}
    (inside : offset + count ≤ size) :
    ((received data size).drop offset).take count = (Reading.copy data offset count).value := by
  apply List.ext_getElem
  · simp only [List.length_take, List.length_drop, received_length, Reading.copy, List.length_map,
      List.length_range]
    omega
  · intro index _ _
    simp only [received, Reading.copy, List.getElem_take, List.getElem_drop, List.getElem_map,
      List.getElem_range]

theorem readUInt32_value (data : Memory) {size offset : Nat} (inside : offset + 4 ≤ size) :
    (readUInt32 data offset).value = loadUInt32 (received data size) offset := by
  rw [loadUInt32, received_stretch data inside]
  rfl

theorem readUInt32_within (data : Memory) {size offset : Nat} (inside : offset + 4 ≤ size) :
    (readUInt32 data offset).Within size :=
  (Reading.copy_within data inside).bind (Reading.within_pure size _)

theorem readCrc32_value (data : Memory) {size length : Nat} (inside : length ≤ size) :
    (readCrc32 data length).value = computeCrc32 (received data size) length := by
  have stretch := @received_stretch data size 0 length (by omega)
  rw [List.drop_zero] at stretch
  rw [computeCrc32, stretch, ← Reading.foldBytes_value]
  rfl

theorem readCrc32_within (data : Memory) {size length : Nat} (inside : length ≤ size) :
    (readCrc32 data length).Within size :=
  (Reading.foldBytes_within crc32Step data (by omega) _).bind (Reading.within_pure size _)

theorem expected_exact (sizeType : SizeType) (payloadSizeBytes : UInt32) {size : Nat}
    (atLeast : kHeaderSize + kCrcSize ≤ size)
    (expected : size = expectedTotalSizeBytes sizeType payloadSizeBytes) :
    size = kHeaderSize + payloadSizeBytes.toNat + kCrcSize ∧
      sizeType.sub size kCrcSize = kHeaderSize + payloadSizeBytes.toNat := by
  have bound := payloadSizeBytes.toNat_lt
  have exact : size = kHeaderSize + payloadSizeBytes.toNat + kCrcSize := by
    rcases expectedTotalSizeBytes_cases sizeType payloadSizeBytes with plain | ⟨_, _, wrapped⟩
    · rw [expected, plain]
    · simp only [kHeaderSize, kCrcSize] at atLeast wrapped
      omega
  refine ⟨exact, ?_⟩
  have fits : size < sizeType.modulus := by
    rw [expected]
    exact Nat.mod_lt _ (Nat.lt_of_lt_of_le (by decide) sizeType.modulus_ge)
  simp only [SizeType.sub, kHeaderSize, kCrcSize] at exact ⊢
  have wide := sizeType.modulus_ge
  rw [Nat.mod_eq_of_lt (by omega : 4 < sizeType.modulus)]
  have regroup : size + (sizeType.modulus - 4) = (size - 4) + sizeType.modulus := by omega
  rw [regroup, Nat.add_mod_right, Nat.mod_eq_of_lt (by omega)]
  omega

structure Accepted (data : Memory) (size : Nat) : Prop where
  version : (received data size).getD 0 0 = kProtocolVersion
  type : (received data size).getD 1 0 = FrameType.data.toByte
  whole : frameSize (received data size) = size
  checksum : loadUInt32 (received data size) (size - kCrcSize) =
    computeCrc32 (received data size) (size - kCrcSize)

theorem Accepted.exact {data : Memory} {size : Nat} (accepted : Accepted data size) :
    size = kHeaderSize + announcedSize (received data size) + kCrcSize :=
  accepted.whole.symm

theorem expected_of_whole (sizeType : SizeType) (bytes : Bytes) {size : Nat}
    (representable : size < sizeType.modulus) (whole : frameSize bytes = size) :
    size = expectedTotalSizeBytes sizeType (loadUInt32 bytes 4) := by
  rw [expectedTotalSizeBytes, SizeType.add, SizeType.add, Nat.mod_add_mod]
  rw [← whole, frameSize, announcedSize] at representable ⊢
  exact (Nat.mod_eq_of_lt representable).symm

/-- What a computation over the received data comes to: it hands the payload over, or
it returns false. -/
def Comes (sizeType : SizeType) (data : Memory) (size : Nat) (handled reading : Reading Bool) :
    Prop :=
  (Accepted data size ∧ reading.value = handled.value ∧
      (reading.Within size ↔ handled.Within (announcedSize (received data size) + kCrcSize))) ∨
    ((size < sizeType.modulus → ¬ Accepted data size) ∧ reading.value = false ∧
      reading.Within size)

theorem Comes.rejected {sizeType : SizeType} {data : Memory} {size : Nat} {handled : Reading Bool}
    (rejected : size < sizeType.modulus → ¬ Accepted data size) :
    Comes sizeType data size handled (pure false) :=
  .inr ⟨rejected, rfl, Reading.within_pure size false⟩

/-- Reads inside the received data change nothing. -/
theorem Comes.bind {Value : Type} {sizeType : SizeType} {data : Memory} {size : Nat}
    {handled : Reading Bool} {first : Reading Value} {next : Value → Reading Bool}
    (inside : first.Within size) (comes : Comes sizeType data size handled (next first.value)) :
    Comes sizeType data size handled (first >>= next) := by
  rcases comes with ⟨accepted, value, within⟩ | ⟨rejected, value, within⟩
  · exact .inl ⟨accepted, value,
      ((Reading.within_bind_iff size first next).trans (and_iff_right inside)).trans within⟩
  · exact .inr ⟨rejected, value, inside.bind within⟩

theorem readChecked_comes (sizeType : SizeType) (data : Memory) {size : Nat}
    (version : (received data size).getD 0 0 = kProtocolVersion)
    (whole : frameSize (received data size) = size) (handler : Memory → Nat → Reading Bool) :
    Comes sizeType data size (handler (payloadData data) (announcedSize (received data size)))
      (readChecked data (size - kCrcSize) ((received data size).getD 1 0)
        (loadUInt32 (received data size) 4) (some handler)) := by
  have exact := whole.symm
  rw [frameSize] at exact
  simp only [kHeaderSize, kCrcSize] at exact
  refine Comes.bind (readUInt32_within data (by simp only [kCrcSize]; omega)) ?_
  refine Comes.bind (readCrc32_within data (by omega)) ?_
  rw [@readUInt32_value data size _ (by simp only [kCrcSize]; omega),
    @readCrc32_value data size _ (by omega)]
  split
  · rename_i mismatch
    exact .rejected fun _ accepted => mismatch accepted.checksum
  split
  · rename_i other
    exact .rejected fun _ accepted => other accepted.type
  · rename_i checksum type
    refine .inl ⟨⟨version, not_not.mp type, whole, not_not.mp checksum⟩, rfl, ?_⟩
    have bound : size = kHeaderSize + (announcedSize (received data size) + kCrcSize) := by
      simp only [kHeaderSize, kCrcSize]
      omega
    have moved := Reading.within_behind_iff kHeaderSize
      (announcedSize (received data size) + kCrcSize)
      (handler (payloadData data) (announcedSize (received data size)))
    rw [← bound] at moved
    exact moved

/-- `HandleIncoming` reads nothing but the received data before it calls the handler,
and calls it for the same bytes on both targets. -/
theorem readIncoming_comes (sizeType : SizeType) (data : Memory) (size : Nat)
    (handler : Memory → Nat → Reading Bool) :
    Comes sizeType data size (handler (payloadData data) (announcedSize (received data size)))
      (readIncoming sizeType (some data) size (some handler)) := by
  rw [readIncoming]
  split
  · rename_i short
    refine .rejected fun _ accepted => ?_
    have exact := accepted.exact
    omega
  rename_i long
  have atLeast : 12 ≤ size := Nat.le_of_not_lt long
  refine Comes.bind ((Reading.within_load_iff _ _ _).mpr (by omega)) ?_
  refine Comes.bind ((Reading.within_load_iff _ _ _).mpr (by omega)) ?_
  refine Comes.bind (Reading.copy_within data (by omega)) ?_
  refine Comes.bind (readUInt32_within data (by omega)) ?_
  rw [@readUInt32_value data size 4 (by omega), Reading.load, Reading.load,
    ← @received_getD data size 0 (by omega), ← @received_getD data size 1 (by omega)]
  dsimp only
  split
  · rename_i wrong
    exact .rejected fun representable accepted => wrong
      ⟨accepted.version, expected_of_whole sizeType _ representable accepted.whole⟩
  · rename_i checks
    obtain ⟨version, expected⟩ := not_not.mp checks
    obtain ⟨exact, offset⟩ := expected_exact sizeType _ atLeast expected
    have whole : frameSize (received data size) = size := exact.symm
    have crcOffset : sizeType.sub size kCrcSize = size - kCrcSize := by
      rw [offset]
      simp only [kHeaderSize, kCrcSize] at exact ⊢
      omega
    rw [← expected, crcOffset]
    exact readChecked_comes sizeType data version whole handler

theorem readIncoming_value (sizeType : SizeType) (data : Memory) (size : Nat)
    (handler : Memory → Nat → Reading Bool) {State : Type} (next : Bytes → State → State)
    (state : State) :
    (readIncoming sizeType (some data) size (some handler)).value =
      (handleIncoming sizeType (some (received data size)) size
        (some fun payload state =>
          ((handler (payloadData data) payload.length).value, next payload state)) state).1 := by
  rw [readIncoming, handleIncoming]
  split
  · rfl
  rename_i long
  have atLeast : 12 ≤ size := Nat.le_of_not_lt long
  simp only [Reading.bind_value, @readUInt32_value data size 4 (by omega), Reading.load,
    ← @received_getD data size 0 (by omega), ← @received_getD data size 1 (by omega)]
  split
  · rfl
  rename_i checks
  obtain ⟨exact, offset⟩ := expected_exact sizeType _ atLeast (not_not.mp checks).2
  have inside : kHeaderSize + (loadUInt32 (received data size) 4).toNat + 4 ≤ size :=
    Nat.le_of_eq exact.symm
  rw [← (not_not.mp checks).2, offset]
  simp only [readChecked, Reading.bind_value, readUInt32_value data inside,
    @readCrc32_value data size (kHeaderSize + (loadUInt32 (received data size) 4).toNat) (by omega)]
  by_cases mismatch :
      loadUInt32 (received data size) (kHeaderSize + (loadUInt32 (received data size) 4).toNat) ≠
        computeCrc32 (received data size) (kHeaderSize + (loadUInt32 (received data size) 4).toNat)
  · rw [if_pos mismatch, if_pos mismatch]
    rfl
  rw [if_neg mismatch, if_neg mismatch]
  by_cases other : (received data size).getD 1 0 ≠ FrameType.data.toByte
  · rw [if_pos other, if_pos other]
    rfl
  · rw [if_neg other, if_neg other]
    have length : (((received data size).drop kHeaderSize).take
        (loadUInt32 (received data size) 4).toNat).length =
          (loadUInt32 (received data size) 4).toNat := by
      rw [List.length_take, List.length_drop, received_length]
      omega
    rw [length]
    rfl

/-! ## The endpoints -/

def frameHandler {Message : Type} (frame : Option Memory → Nat → Reading (Bool × Option Message)) :
    Memory → Nat → Reading Bool := fun payload payloadSizeBytes => do
  let (accepted, _) ← frame (some payload) payloadSizeBytes
  pure accepted

def readReceived {Message : Type} (sizeType : SizeType)
    (frame : Option Memory → Nat → Reading (Bool × Option Message)) (receivedData : Memory)
    (receivedSizeBytes : Nat) : Reading Bool :=
  readIncoming sizeType (some receivedData) receivedSizeBytes (some (frameHandler frame))

/-- A frame whose payload is too short for the identifier, and whose checksum ends in
the beginning of the identifier. -/
structure RunsPast (identifier : List UInt8) (receivedData : Memory) (receivedSizeBytes : Nat) :
    Prop where
  frame : ∃ sequenceNumber payload, 0 < payload.length ∧ payload.length < 4 ∧
    received receivedData receivedSizeBytes = encodeFrame sequenceNumber payload
  begun : ∀ index, kHeaderSize + 4 + index < receivedSizeBytes →
    receivedData (kHeaderSize + 4 + index) = identifier.getD index 0

theorem accepted_iff_encodeFrame (data : Memory) {size : Nat}
    (small : size ≤ kHeaderSize + kMaxFrameSize + kCrcSize) :
    Accepted data size ↔ ∃ sequenceNumber payload, payload.length ≤ kMaxFrameSize ∧
      received data size = encodeFrame sequenceNumber payload := by
  rw [← validFrame_whole_iff, received_length]
  have crcOffset : frameSize (received data size) = size →
      size - kCrcSize = kHeaderSize + announcedSize (received data size) := by
    intro whole
    rw [frameSize] at whole
    omega
  constructor
  · rintro ⟨version, type, whole, checksum⟩
    rw [crcOffset whole] at checksum
    refine ⟨⟨version, type, ?_, ?_, checksum⟩, whole⟩
    · rw [frameSize] at whole
      omega
    · exact Nat.le_of_eq (whole.trans (received_length data size).symm)
  · rintro ⟨valid, whole⟩
    refine ⟨valid.version, valid.type, whole, ?_⟩
    rw [crcOffset whole]
    exact valid.checksum

section Endpoints
variable {Message : Type} {generated : GeneratedCode}

/-- Behind a short payload the test of the identifier runs on as long as the bytes of
the checksum agree with the identifier. -/
theorem bufferHasIdentifier_within_iff (data : Memory) {identifier : List UInt8}
    (length : identifier.length = 4) (payloadSize : Nat) :
    (bufferHasIdentifier data identifier).Within (payloadSize + kCrcSize) ↔
      4 ≤ payloadSize ∨ ¬ ∀ index < payloadSize, data (4 + index) = identifier.getD index 0 := by
  have nonEmpty : identifier ≠ [] := by
    intro empty
    rw [empty] at length
    exact absurd length (by decide)
  rw [bufferHasIdentifier, Reading.within_compare_iff _ data 4 nonEmpty, length, kCrcSize]
  refine ⟨fun decided => ?_, fun decided => ?_⟩
  · rcases decided with room | ⟨index, inside, byte, found, differs⟩
    · exact .inl (by omega)
    · refine .inr fun same => differs ?_
      rw [same index (by omega), List.getD_eq_getElem?_getD, found, Option.getD_some]
  · rcases decided with room | differs
    · exact .inl (by omega)
    · by_cases room : 4 ≤ payloadSize
      · exact .inl (by omega)
      · obtain ⟨index, differs⟩ := not_forall.mp differs
        obtain ⟨inside, differs⟩ := Classical.not_imp.mp differs
        have known : index < identifier.length := by omega
        refine .inr ⟨index, by omega, identifier[index], List.getElem?_eq_getElem known, ?_⟩
        rwa [← List.getD_eq_getElem _ 0 known]

theorem frameHandler_within_iff (frame : Option Memory → Nat → Reading (Bool × Option Message))
    (payload : Memory) (payloadSize bound : Nat) :
    (frameHandler frame payload payloadSize).Within bound ↔
      (frame (some payload) payloadSize).Within bound :=
  (Reading.within_bind_iff bound _ _).trans (and_iff_left (Reading.within_pure bound _))

theorem readReceived_within_iff (verifier : generated.VerifierInside)
    (accessors : generated.AccessorsInside) (format : EnvelopeFormat Message)
    (length : format.identifier.length = 4) (sizeType : SizeType) (registered : Message → Bool)
    (receivedData : Memory) (receivedSizeBytes : Nat) :
    (readReceived sizeType (handleFrame format generated registered) receivedData
        receivedSizeBytes).Within receivedSizeBytes ↔
      ¬ RunsPast format.identifier receivedData receivedSizeBytes := by
  have decided := fun payloadSize => handleFrame_within_bound_iff verifier accessors format
    registered (payloadData receivedData) (Nat.le_add_right payloadSize kCrcSize)
  rcases readIncoming_comes sizeType receivedData receivedSizeBytes
    (frameHandler (handleFrame format generated registered)) with
    ⟨accepted, _, within⟩ | ⟨rejected, _, within⟩
  · have exact := accepted.exact
    rw [readReceived, within, frameHandler_within_iff, decided,
      bufferHasIdentifier_within_iff _ length]
    generalize announcedSize (received receivedData receivedSizeBytes) = payloadSize at exact
    simp only [kHeaderSize, kCrcSize] at exact
    constructor
    · rintro tested ⟨⟨sequenceNumber, payload, positive, short, encoded⟩, begun⟩
      have total := congrArg List.length encoded
      rw [received_length, encodeFrame_length] at total
      simp only [kHeaderSize, kCrcSize] at total
      rcases tested with empty | room | differs
      · omega
      · omega
      · refine differs fun index inside => ?_
        have position : kHeaderSize + (4 + index) = kHeaderSize + 4 + index := by omega
        rw [payloadData, position]
        exact begun index (by simp only [kHeaderSize]; omega)
    · intro stays
      by_contra runs
      obtain ⟨positive, runs⟩ := not_or.mp runs
      obtain ⟨short, begun⟩ := not_or.mp runs
      obtain ⟨sequenceNumber, payload, _, encoded⟩ := (accepted_iff_encodeFrame receivedData
        (by simp only [kHeaderSize, kMaxFrameSize, kCrcSize]; omega)).mp accepted
      have total := congrArg List.length encoded
      rw [received_length, encodeFrame_length] at total
      simp only [kHeaderSize, kCrcSize] at total
      refine stays ⟨⟨sequenceNumber, payload, by omega, by omega, encoded⟩, fun index inside => ?_⟩
      simp only [kHeaderSize] at inside
      have same := not_not.mp begun index (by omega)
      have position : kHeaderSize + (4 + index) = kHeaderSize + 4 + index := by omega
      rw [payloadData, position] at same
      exact same
  · refine iff_of_true within fun runs => ?_
    obtain ⟨sequenceNumber, payload, _, short, encoded⟩ := runs.frame
    have total := congrArg List.length encoded
    rw [received_length, encodeFrame_length] at total
    simp only [kHeaderSize, kCrcSize] at total
    have wide := sizeType.modulus_ge
    refine rejected (by omega) ((accepted_iff_encodeFrame receivedData (by
      simp only [kHeaderSize, kMaxFrameSize, kCrcSize]; omega)).mpr
        ⟨sequenceNumber, payload, ?_, encoded⟩)
    simp only [kMaxFrameSize]
    omega

end Endpoints

/-- **When receiving leaves the received data**, on both targets: only in an endpoint,
and only for a frame of one to three payload bytes whose checksum ends in the
beginning of the identifier. -/
theorem endpoints_read_received_iff (generated : GeneratedCode)
    (verifier : generated.VerifierInside) (accessors : generated.AccessorsInside)
    (sizeType : SizeType) (receivedData : Memory) (receivedSizeBytes : Nat) :
    (∀ registered,
      (readReceived sizeType (MidiEndpoint.handleFrame generated registered) receivedData
        receivedSizeBytes).Within receivedSizeBytes ↔
      ¬ RunsPast MidiEndpoint.format.identifier receivedData receivedSizeBytes) ∧
    (∀ registered,
      (readReceived sizeType (PwmEndpoint.handleFrame generated registered) receivedData
        receivedSizeBytes).Within receivedSizeBytes ↔
      ¬ RunsPast PwmEndpoint.format.identifier receivedData receivedSizeBytes) ∧
    (∀ registered,
      (readReceived sizeType (OtaEndpoint.handleFrame generated registered) receivedData
        receivedSizeBytes).Within receivedSizeBytes ↔
      ¬ RunsPast OtaEndpoint.format.identifier receivedData receivedSizeBytes) ∧
    (∀ registered,
      (readReceived sizeType (LogEndpoint.handleFrame generated registered) receivedData
        receivedSizeBytes).Within receivedSizeBytes ↔
      ¬ RunsPast LogEndpoint.format.identifier receivedData receivedSizeBytes) := by
  refine ⟨?_, ?_, ?_, ?_⟩ <;> intro registered <;>
    exact readReceived_within_iff verifier accessors _ rfl sizeType registered _ _

theorem received_of_bytes (bytes : Bytes) (behind : UInt8) :
    received (fun offset => bytes.getD offset behind) bytes.length = bytes := by
  refine List.ext_getElem (received_length _ _) ?_
  intro offset _ inside
  simp only [received, List.getElem_map, List.getElem_range]
  exact List.getD_eq_getElem bytes behind inside

/-- A frame whose checksum ends in the first byte of the identifier of MIDI messages. -/
def runawayFrame : Bytes := encodeFrame 1 [113]

theorem endpoints_read_received_runaway_frame :
    ¬ (readReceived .bits32 (MidiEndpoint.handleFrame rejectingCode fun _ => true)
      (fun offset => runawayFrame.getD offset 0xCD) 13).Within 13 := by
  have length : runawayFrame.length = 13 := encodeFrame_length 1 [113]
  have checksum : runawayFrame.getD 12 0xCD = 0x4D := by decide +kernel
  have whole := received_of_bytes runawayFrame 0xCD
  rw [length] at whole
  have reads := (endpoints_read_received_iff rejectingCode rejectingCode_verifierInside
    rejectingCode_accessorsInside .bits32 (fun offset => runawayFrame.getD offset 0xCD) 13).1
    fun _ => true
  rw [reads, not_not]
  refine ⟨⟨1, [113], by decide, by decide, whole⟩, fun index inside => ?_⟩
  simp only [kHeaderSize] at inside ⊢
  have first : index = 0 := by omega
  rw [first]
  exact checksum

end Libcomm
