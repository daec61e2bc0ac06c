import Libcomm.FrameFormat
import Libcomm.Library.ReadTrace

/-!
# The endpoints

`HandleFrame` of the four endpoints is handed a payload by `HandleIncoming` of the
transport: a pointer into the received data and a size.  What it reads is recorded.
The identifier of the message is tested before anything is verified, without regard
to the size; the rest is code that is generated from the schemas and known here only
by what it promises about a verified buffer.
-/

set_option autoImplicit false

namespace Libcomm

open ReadTrace

/-- The bytes from a pointer on, inside the data and behind it. -/
abbrev Memory := Nat → UInt8

/-! ## The generated code -/

/-- The functions that are generated from the schema of an envelope. -/
structure GeneratedCode where
  verifyEnvelopeBuffer : Memory → Nat → Reading Bool
  /-- Whether the envelope is no null pointer. -/
  getEnvelope : Memory → Reading Bool
  /-- The type of the message in the envelope. -/
  messageType : Memory → Reading UInt8
  /-- Whether the message, taken as one of a type, is no null pointer. -/
  messageAs : Memory → UInt8 → Reading Bool
  /-- The fields of the message that are logged. -/
  loggedFields : Memory → UInt8 → Reading Unit

def GeneratedCode.VerifierInside (generated : GeneratedCode) : Prop :=
  ∀ memory size, (generated.verifyEnvelopeBuffer memory size).Within size

def GeneratedCode.AccessorsInside (generated : GeneratedCode) : Prop :=
  ∀ memory size, (generated.verifyEnvelopeBuffer memory size).value = true →
    (generated.getEnvelope memory).Within size ∧ (generated.messageType memory).Within size ∧
      ∀ type, (generated.messageAs memory type).Within size ∧
        (generated.loggedFields memory type).Within size

/-- `BufferHasIdentifier`: the identifier is behind the offset of the root table. -/
def bufferHasIdentifier (memory : Memory) (identifier : List UInt8) : Reading Bool :=
  Reading.compare memory 4 identifier

/-! ## Handling a frame -/

/-- Whether a case of the switch looks at the message or at its handler first. -/
inductive CaseOrder where
  | messageFirst
  | handlerFirst
  deriving DecidableEq, Repr

structure EnvelopeFormat (Message : Type) where
  identifier : List UInt8
  /-- The cases of the switch. -/
  case : UInt8 → Option Message
  order : Message → CaseOrder

/-- One case of the switch: the handler that is invoked, if any. -/
def handleCase {Message : Type} (order : CaseOrder) (generated : GeneratedCode) (data : Memory)
    (type : UInt8) (message : Message) (registered : Bool) : Reading (Option Message) :=
  match order with
  | .messageFirst => do
      let present ← generated.messageAs data type
      if present then do
        generated.loggedFields data type
        pure (if registered then some message else none)
      else pure none
  | .handlerFirst =>
      if registered then do
        let present ← generated.messageAs data type
        if present then do
          generated.loggedFields data type
          pure (some message)
        else pure none
      else pure none

/-- `HandleFrame`: whether the frame is accepted, and the handler that is invoked. -/
def handleFrame {Message : Type} (format : EnvelopeFormat Message) (generated : GeneratedCode)
    (registered : Message → Bool) (framePayloadData : Option Memory)
    (framePayloadSizeBytes : Nat) : Reading (Bool × Option Message) :=
  match framePayloadData with
  | none => pure (false, none)
  | some data =>
      if framePayloadSizeBytes = 0 then pure (false, none)
      else do
        let hasValidIdentifier ← bufferHasIdentifier data format.identifier
        if hasValidIdentifier then do
          let envelopeIsValid ← generated.verifyEnvelopeBuffer data framePayloadSizeBytes
          if envelopeIsValid then do
            let deserializedEnvelope ← generated.getEnvelope data
            if deserializedEnvelope then do
              let type ← generated.messageType data
              match format.case type with
              | some message => do
                  let invoked ← handleCase (format.order message) generated data type message
                    (registered message)
                  pure (true, invoked)
              -- the type is read again for the log
              | none => do
                  let _ ← generated.messageType data
                  pure (false, none)
            else pure (false, none)
          else pure (false, none)
        else pure (false, none)

def payloadData (receivedData : Memory) : Memory :=
  fun offset => receivedData (kHeaderSize + offset)

/-- `HandleIncoming` of an endpoint: what the transport returns, and what
`HandleFrame` has made of a payload of a size, if it was called. -/
def handleReceived {Message : Type} (sizeType : SizeType)
    (frame : Option Memory → Nat → Reading (Bool × Option Message)) (receivedData : Memory)
    (receivedSizeBytes : Nat) : Bool × Option (Nat × Reading (Bool × Option Message)) :=
  let handler : DataHandler (Option (Nat × Reading (Bool × Option Message))) := fun payload _ =>
    let handled := frame (some (payloadData receivedData)) payload.length
    (handled.value.1, some (payload.length, handled))
  handleIncoming sizeType (some ((List.range receivedSizeBytes).map receivedData))
    receivedSizeBytes (some handler) none

/-! ### The four endpoints -/

namespace MidiEndpoint

inductive Packet where
  | ping
  | channelMessage
  | systemCommonMessage
  | systemRealTimeMessage
  | systemExclusiveMessage
  deriving DecidableEq, Repr

def format : EnvelopeFormat Packet where
  -- M2PW
  identifier := [0x4D, 0x32, 0x50, 0x57]
  case
    | 1 => some .ping
    | 2 => some .channelMessage
    | 3 => some .systemCommonMessage
    | 4 => some .systemRealTimeMessage
    | 5 => some .systemExclusiveMessage
    | _ => none
  order
    | .ping => .handlerFirst
    | .channelMessage => .messageFirst
    | .systemCommonMessage => .handlerFirst
    | .systemRealTimeMessage => .handlerFirst
    | .systemExclusiveMessage => .messageFirst

def handleFrame (generated : GeneratedCode) (registered : Packet → Bool) :
    Option Memory → Nat → Reading (Bool × Option Packet) :=
  Libcomm.handleFrame format generated registered

def handleIncoming (sizeType : SizeType) (generated : GeneratedCode) (registered : Packet → Bool) :
    Memory → Nat → Bool × Option (Nat × Reading (Bool × Option Packet)) :=
  handleReceived sizeType (handleFrame generated registered)

end MidiEndpoint

namespace PwmEndpoint

inductive Message where
  | channelConfig
  | batchConfig
  | batchTelemetry
  | faultLog
  | faultControlCommand
  | heartBeat
  | response
  deriving DecidableEq, Repr

def format : EnvelopeFormat Message where
  -- PWMX
  identifier := [0x50, 0x57, 0x4D, 0x58]
  case
    | 1 => some .channelConfig
    | 2 => some .batchConfig
    | 3 => some .batchTelemetry
    | 4 => some .faultLog
    | 5 => some .faultControlCommand
    | 6 => some .heartBeat
    | 7 => some .response
    | _ => none
  order _ := .messageFirst

def handleFrame (generated : GeneratedCode) (registered : Message → Bool) :
    Option Memory → Nat → Reading (Bool × Option Message) :=
  Libcomm.handleFrame format generated registered

def handleIncoming (sizeType : SizeType) (generated : GeneratedCode) (registered : Message → Bool) :
    Memory → Nat → Bool × Option (Nat × Reading (Bool × Option Message)) :=
  handleReceived sizeType (handleFrame generated registered)

end PwmEndpoint

namespace OtaEndpoint

inductive Message where
  | otaBegin
  | otaData
  | otaEnd
  | otaProgress
  | otaAbort
  deriving DecidableEq, Repr

def format : EnvelopeFormat Message where
  -- OTAX
  identifier := [0x4F, 0x54, 0x41, 0x58]
  case
    | 1 => some .otaBegin
    | 2 => some .otaData
    | 3 => some .otaEnd
    | 4 => some .otaProgress
    | 5 => some .otaAbort
    | _ => none
  order _ := .messageFirst

def handleFrame (generated : GeneratedCode) (registered : Message → Bool) :
    Option Memory → Nat → Reading (Bool × Option Message) :=
  Libcomm.handleFrame format generated registered

def handleIncoming (sizeType : SizeType) (generated : GeneratedCode) (registered : Message → Bool) :
    Memory → Nat → Bool × Option (Nat × Reading (Bool × Option Message)) :=
  handleReceived sizeType (handleFrame generated registered)

end OtaEndpoint

namespace LogEndpoint

inductive Message where
  | logForward
  deriving DecidableEq, Repr

def format : EnvelopeFormat Message where
  -- LOGX
  identifier := [0x4C, 0x4F, 0x47, 0x58]
  case
    | 1 => some .logForward
    | _ => none
  order _ := .messageFirst

def handleFrame (generated : GeneratedCode) (registered : Message → Bool) :
    Option Memory → Nat → Reading (Bool × Option Message) :=
  Libcomm.handleFrame format generated registered

def handleIncoming (sizeType : SizeType) (generated : GeneratedCode) (registered : Message → Bool) :
    Memory → Nat → Bool × Option (Nat × Reading (Bool × Option Message)) :=
  handleReceived sizeType (handleFrame generated registered)

end LogEndpoint

/-! ## What is read -/

section Reads
variable {Message : Type} {generated : GeneratedCode}

/-- Behind a successful verification every read is inside. -/
theorem handleCase_within (accessors : generated.AccessorsInside) {data : Memory} {size : Nat}
    (verified : (generated.verifyEnvelopeBuffer data size).value = true) (order : CaseOrder)
    (type : UInt8) (message : Message) (registered : Bool) :
    (handleCase order generated data type message registered).Within size := by
  obtain ⟨_, _, fields⟩ := accessors data size verified
  obtain ⟨taken, logged⟩ := fields type
  cases order with
  | messageFirst =>
      refine taken.bind ?_
      split
      · exact logged.bind (Reading.within_pure size _)
      · exact Reading.within_pure size _
  | handlerFirst =>
      rw [handleCase]
      split
      · refine taken.bind ?_
        split
        · exact logged.bind (Reading.within_pure size _)
        · exact Reading.within_pure size _
      · exact Reading.within_pure size _

theorem handleFrame_within_bound_iff (verifier : generated.VerifierInside)
    (accessors : generated.AccessorsInside) (format : EnvelopeFormat Message)
    (registered : Message → Bool) (data : Memory) {size bound : Nat} (room : size ≤ bound) :
    (handleFrame format generated registered (some data) size).Within bound ↔
      size = 0 ∨ (bufferHasIdentifier data format.identifier).Within bound := by
  rw [handleFrame]
  by_cases empty : size = 0
  · rw [if_pos empty]
    exact ⟨fun _ => Or.inl empty, fun _ => Reading.within_pure bound _⟩
  rw [if_neg empty, Reading.within_bind_iff]
  constructor
  · exact fun inside => Or.inr inside.1
  rintro (zero | tested)
  · exact absurd zero empty
  refine ⟨tested, ?_⟩
  split
  · refine ((verifier data size).mono room).bind ?_
    split
    · rename_i verified
      obtain ⟨envelope, type, _⟩ := accessors data size verified
      refine (envelope.mono room).bind ?_
      split
      · refine (type.mono room).bind ?_
        split
        · exact ((handleCase_within accessors verified _ _ _ _).mono room).bind
            (Reading.within_pure bound _)
        · exact (type.mono room).bind (Reading.within_pure bound _)
      · exact Reading.within_pure bound _
    · exact Reading.within_pure bound _
  · exact Reading.within_pure bound _

/-- The test of the identifier decides whether `HandleFrame` reads past the payload. -/
theorem handleFrame_within_iff (verifier : generated.VerifierInside)
    (accessors : generated.AccessorsInside) (format : EnvelopeFormat Message)
    (registered : Message → Bool) (data : Memory) (size : Nat) :
    (handleFrame format generated registered (some data) size).Within size ↔
      size = 0 ∨ (bufferHasIdentifier data format.identifier).Within size :=
  handleFrame_within_bound_iff verifier accessors format registered data (Nat.le_refl size)

/-- The test of the identifier ends inside the payload, at its fourth byte or at
one that differs. -/
def IdentifierDecided (identifier : List UInt8) (data : Memory) (size : Nat) : Prop :=
  size = 0 ∨ 8 ≤ size ∨ Reading.DiffersBelow size data 4 identifier

theorem handleFrame_within_iff_decided (verifier : generated.VerifierInside)
    (accessors : generated.AccessorsInside) (format : EnvelopeFormat Message)
    (length : format.identifier.length = 4) (registered : Message → Bool) (data : Memory)
    (size : Nat) :
    (handleFrame format generated registered (some data) size).Within size ↔
      IdentifierDecided format.identifier data size := by
  have nonEmpty : format.identifier ≠ [] := by
    intro empty
    rw [empty] at length
    exact absurd length (by decide)
  rw [handleFrame_within_iff verifier accessors, bufferHasIdentifier,
    Reading.within_compare_iff size data 4 nonEmpty, length]
  rfl

theorem handleFrame_reads_identifier (format : EnvelopeFormat Message)
    (nonEmpty : format.identifier ≠ []) (registered : Message → Bool) (data : Memory) {size : Nat}
    (positive : size ≠ 0) :
    4 ∈ (handleFrame format generated registered (some data) size).reads := by
  rw [handleFrame, if_neg positive, Reading.bind_reads]
  refine List.mem_append_left _ ?_
  rw [bufferHasIdentifier]
  cases identifier : format.identifier with
  | nil => exact absurd identifier nonEmpty
  | cons byte rest =>
      rw [Reading.compare, Reading.bind_reads]
      exact List.mem_append_left _ List.mem_cons_self

/-! ## What the transport hands over -/

theorem handleIncoming_hands {State : Type} (sizeType : SizeType) (data : Bytes) (size : Nat)
    (handler : DataHandler State) (state : State) :
    handleIncoming sizeType (some data) size (some handler) state = (false, state) ∨
      ∃ payload, handleIncoming sizeType (some data) size (some handler) state =
        handler payload state := by
  simp only [handleIncoming]
  split
  · exact Or.inl rfl
  split
  · exact Or.inl rfl
  split
  · exact Or.inl rfl
  split
  · exact Or.inl rfl
  · exact Or.inr ⟨_, rfl⟩

variable {frame : Option Memory → Nat → Reading (Bool × Option Message)}

theorem handleReceived_eq {sizeType : SizeType} {receivedData : Memory}
    {receivedSizeBytes payloadSize : Nat} {reading : Reading (Bool × Option Message)}
    (handed : (handleReceived sizeType frame receivedData receivedSizeBytes).2 =
      some (payloadSize, reading)) :
    reading = frame (some (payloadData receivedData)) payloadSize := by
  rw [handleReceived] at handed
  rcases handleIncoming_hands sizeType ((List.range receivedSizeBytes).map receivedData)
    receivedSizeBytes _ none with returned | ⟨payload, returned⟩
  · rw [returned] at handed
    cases handed
  · rw [returned] at handed
    cases handed
    rfl

theorem handleReceived_frame (sizeType : SizeType) (sequenceNumber : UInt16) {payload : Bytes}
    (small : payload.length ≤ kMaxFrameSize) {receivedData : Memory}
    (received : (List.range (encodeFrame sequenceNumber payload).length).map receivedData =
      encodeFrame sequenceNumber payload) :
    (handleReceived sizeType frame receivedData (encodeFrame sequenceNumber payload).length).2 =
      some (payload.length, frame (some (payloadData receivedData)) payload.length) := by
  have fits : (encodeFrame sequenceNumber payload).length ≤
      kHeaderSize + kMaxFrameSize + kCrcSize := by
    rw [encodeFrame_length]
    omega
  rw [handleReceived, received, handleIncoming_eq sizeType _ _ _ _ (Nat.le_refl _) fits,
    if_pos ⟨validFrame_encodeFrame sequenceNumber payload small,
      frameSize_encodeFrame sequenceNumber payload small⟩,
    framePayload_encodeFrame sequenceNumber payload small]

end Reads

/-- **Exactly when an endpoint reads inside the payload** that the transport hands it:
the payload has room for the identifier, or it differs from the identifier before
its end.  Nothing else in `HandleFrame` can read past it. -/
theorem endpoints_read_inside_iff (generated : GeneratedCode) (verifier : generated.VerifierInside)
    (accessors : generated.AccessorsInside) (sizeType : SizeType) (receivedData : Memory)
    (receivedSizeBytes payloadSize : Nat) :
    (∀ registered reading,
      (MidiEndpoint.handleIncoming sizeType generated registered receivedData
        receivedSizeBytes).2 = some (payloadSize, reading) →
      (reading.Within payloadSize ↔ IdentifierDecided MidiEndpoint.format.identifier
        (payloadData receivedData) payloadSize)) ∧
    (∀ registered reading,
      (PwmEndpoint.handleIncoming sizeType generated registered receivedData
        receivedSizeBytes).2 = some (payloadSize, reading) →
      (reading.Within payloadSize ↔ IdentifierDecided PwmEndpoint.format.identifier
        (payloadData receivedData) payloadSize)) ∧
    (∀ registered reading,
      (OtaEndpoint.handleIncoming sizeType generated registered receivedData
        receivedSizeBytes).2 = some (payloadSize, reading) →
      (reading.Within payloadSize ↔ IdentifierDecided OtaEndpoint.format.identifier
        (payloadData receivedData) payloadSize)) ∧
    (∀ registered reading,
      (LogEndpoint.handleIncoming sizeType generated registered receivedData
        receivedSizeBytes).2 = some (payloadSize, reading) →
      (reading.Within payloadSize ↔ IdentifierDecided LogEndpoint.format.identifier
        (payloadData receivedData) payloadSize)) := by
  refine ⟨?_, ?_, ?_, ?_⟩ <;> intro registered reading handed <;>
    rw [handleReceived_eq handed] <;>
    exact handleFrame_within_iff_decided verifier accessors _ rfl registered _ _

/-- Generated code that rejects every buffer.  Its verifier looks at the offset of
the root table and at the identifier. -/
def rejectingCode : GeneratedCode where
  verifyEnvelopeBuffer _ size := ⟨false, List.range (min size 8)⟩
  getEnvelope _ := pure false
  messageType _ := pure 0
  messageAs _ _ := pure false
  loggedFields _ _ := pure ()

theorem rejectingCode_verifierInside : rejectingCode.VerifierInside := by
  intro memory size offset member
  exact Nat.lt_of_lt_of_le (List.mem_range.mp member) (Nat.min_le_left size 8)

theorem rejectingCode_accessorsInside : rejectingCode.AccessorsInside := by
  intro memory size verified
  exact absurd verified Bool.false_ne_true

def framedMemory (payload : Bytes) : Memory :=
  fun offset => (encodeFrame 0 payload).getD offset 0xCD

theorem framedMemory_received (payload : Bytes) :
    (List.range (encodeFrame 0 payload).length).map (framedMemory payload) =
      encodeFrame 0 payload := by
  refine List.ext_getElem (by simp) ?_
  intro offset _ inside
  rw [List.getElem_map, List.getElem_range, framedMemory]
  exact (List.getElem_eq_getD 0xCD).symm

def rootlessEnvelope : Bytes := [0, 0, 0, 0, 0x4D, 0x32, 0x50, 0x57]

theorem endpoints_read_inside_rootless_envelope :
    ∃ reading, (MidiEndpoint.handleIncoming .bits64 rejectingCode (fun _ => true)
        (framedMemory rootlessEnvelope) (encodeFrame 0 rootlessEnvelope).length).2 =
      some (8, reading) ∧ reading.Within 8 := by
  have handed := @handleReceived_frame _
    (MidiEndpoint.handleFrame rejectingCode fun _ => true) .bits64 0 rootlessEnvelope (by decide)
    (framedMemory rootlessEnvelope) (framedMemory_received rootlessEnvelope)
  refine ⟨_, handed, ?_⟩
  exact ((endpoints_read_inside_iff rejectingCode rejectingCode_verifierInside
    rejectingCode_accessorsInside .bits64 (framedMemory rootlessEnvelope)
    (encodeFrame 0 rootlessEnvelope).length 8).1 _ _ handed).mpr (Or.inr (Or.inl (Nat.le_refl 8)))

/-- The first byte of the identifier is read before the size plays a role. -/
theorem one_byte_payload_is_overread :
    IsBuilt 0 [0x2A] (encodeFrame 0 [0x2A]) ∧
    (∃ reading, (MidiEndpoint.handleIncoming .bits64 rejectingCode (fun _ => true)
        (framedMemory [0x2A]) 13).2 = some (1, reading) ∧ 4 ∈ reading.reads) ∧
    (∃ reading, (PwmEndpoint.handleIncoming .bits64 rejectingCode (fun _ => true)
        (framedMemory [0x2A]) 13).2 = some (1, reading) ∧ 4 ∈ reading.reads) ∧
    (∃ reading, (OtaEndpoint.handleIncoming .bits64 rejectingCode (fun _ => true)
        (framedMemory [0x2A]) 13).2 = some (1, reading) ∧ 4 ∈ reading.reads) ∧
    (∃ reading, (LogEndpoint.handleIncoming .bits64 rejectingCode (fun _ => true)
        (framedMemory [0x2A]) 13).2 = some (1, reading) ∧ 4 ∈ reading.reads) := by
  have length : (encodeFrame 0 [0x2A]).length = 13 := encodeFrame_length 0 [0x2A]
  rw [← length]
  refine ⟨(isBuilt_iff 0 [0x2A] _ (by decide)).mpr rfl, ?_, ?_, ?_, ?_⟩ <;>
    refine ⟨_, handleReceived_frame .bits64 0 (by decide) (framedMemory_received [0x2A]), ?_⟩ <;>
    exact handleFrame_reads_identifier _ (by decide) _ _ (by decide)

end Libcomm
