import Libcomm.EndpointLoopback

/-!
# MIDI messages

The builders of the MIDI endpoint, from their arguments to the tables they put into
an envelope, and what a handler can make of such a table.  A message is what it is to
MIDI, not to the schema: a pitch bend is one number of 14 bits, although it travels in
two data bytes.  Two calls of the builders are told apart by the receiver exactly when
they mean different messages.
-/

set_option autoImplicit false

namespace Libcomm

open FlatBuffers

namespace MidiEndpoint

/-! ## The schema -/

inductive ChannelMessageType where
  | noteOff
  | noteOn
  | polyphonicKeyPressure
  | controlChange
  | programChange
  | channelPressure
  | pitchBend
  deriving DecidableEq, Repr

inductive SystemCommonType where
  | timeCodeQuarterFrame
  | songPositionPointer
  | songSelect
  | tuneRequest
  deriving DecidableEq, Repr

inductive SystemRealTimeType where
  | timingClock
  | start
  | continue
  | stop
  | activeSensing
  | systemReset
  deriving DecidableEq, Repr

/-- The tables of the union; a vector may be absent. -/
inductive Table where
  | ping (sequence : UInt32) (timestamp : UInt64)
  | channelMessage (channel : UInt8) (messageType : ChannelMessageType) (data1 data2 : UInt8)
  | systemCommonMessage (messageType : SystemCommonType) (value : UInt16)
  | systemRealTimeMessage (messageType : SystemRealTimeType)
  | systemExclusiveMessage (manufacturerId payload : Option Bytes)
  deriving DecidableEq, Repr

def Packet.toByte : Packet → UInt8
  | .ping => 1
  | .channelMessage => 2
  | .systemCommonMessage => 3
  | .systemRealTimeMessage => 4
  | .systemExclusiveMessage => 5

def Table.packet : Table → Packet
  | .ping .. => .ping
  | .channelMessage .. => .channelMessage
  | .systemCommonMessage .. => .systemCommonMessage
  | .systemRealTimeMessage .. => .systemRealTimeMessage
  | .systemExclusiveMessage .. => .systemExclusiveMessage

def Belongs (type : UInt8) (table : Table) : Prop := type = table.packet.toByte

/-! ## The builders -/

def buildPingMessage (sequenceNumber : UInt32) (timestampValue : UInt64) : Envelope Table :=
  (Packet.ping.toByte, .ping sequenceNumber timestampValue)

def buildSerializedChannelMessageEnvelope (midiChannelNumber : UInt8)
    (messageType : ChannelMessageType) (firstDataByte secondDataByte : UInt8) : Envelope Table :=
  (Packet.channelMessage.toByte,
    .channelMessage midiChannelNumber messageType firstDataByte secondDataByte)

def buildNoteOffMessage (midiChannelNumber noteNumber velocityValue : UInt8) : Envelope Table :=
  buildSerializedChannelMessageEnvelope midiChannelNumber .noteOff noteNumber velocityValue

def buildNoteOnMessage (midiChannelNumber noteNumber velocityValue : UInt8) : Envelope Table :=
  buildSerializedChannelMessageEnvelope midiChannelNumber .noteOn noteNumber velocityValue

def buildPolyphonicKeyPressureMessage (midiChannelNumber noteNumber pressureValue : UInt8) :
    Envelope Table :=
  buildSerializedChannelMessageEnvelope midiChannelNumber .polyphonicKeyPressure noteNumber
    pressureValue

def buildControlChangeMessage (midiChannelNumber controllerNumber controllerValue : UInt8) :
    Envelope Table :=
  buildSerializedChannelMessageEnvelope midiChannelNumber .controlChange controllerNumber
    controllerValue

def buildProgramChangeMessage (midiChannelNumber programNumber : UInt8) : Envelope Table :=
  buildSerializedChannelMessageEnvelope midiChannelNumber .programChange programNumber 0

def buildChannelPressureMessage (midiChannelNumber pressureValue : UInt8) : Envelope Table :=
  buildSerializedChannelMessageEnvelope midiChannelNumber .channelPressure pressureValue 0

def buildPitchBendMessage (midiChannelNumber : UInt8) (pitchBendValue : UInt16) : Envelope Table :=
  let leastSignificantByte := (pitchBendValue &&& 0x7F).toUInt8
  let mostSignificantByte := ((pitchBendValue >>> 7) &&& 0x7F).toUInt8
  buildSerializedChannelMessageEnvelope midiChannelNumber .pitchBend leastSignificantByte
    mostSignificantByte

def buildSerializedSystemCommonMessageEnvelope (messageType : SystemCommonType)
    (messageDataValue : UInt16) : Envelope Table :=
  (Packet.systemCommonMessage.toByte, .systemCommonMessage messageType messageDataValue)

def buildTimeCodeQuarterFrameMessage (quarterFrameValue : UInt8) : Envelope Table :=
  buildSerializedSystemCommonMessageEnvelope .timeCodeQuarterFrame quarterFrameValue.toUInt16

def buildSongPositionPointerMessage (songPositionBeats : UInt16) : Envelope Table :=
  buildSerializedSystemCommonMessageEnvelope .songPositionPointer songPositionBeats

def buildSongSelectMessage (songNumber : UInt8) : Envelope Table :=
  buildSerializedSystemCommonMessageEnvelope .songSelect songNumber.toUInt16

def buildTuneRequestMessage : Envelope Table :=
  buildSerializedSystemCommonMessageEnvelope .tuneRequest 0

def buildSystemRealTimeMessage (realTimeMessageType : SystemRealTimeType) : Envelope Table :=
  (Packet.systemRealTimeMessage.toByte, .systemRealTimeMessage realTimeMessageType)

/-- A vector, if there are bytes for it; its length is cast to a `flatbuffers::uoffset_t`. -/
def createVector (bytes : Option Bytes) (length : Nat) : Option Bytes :=
  match bytes with
  | some bytes => if length > 0 then some (bytes.take (length % 2 ^ 32)) else none
  | none => none

def buildSystemExclusiveMessage (manufacturerIdBytes : Option Bytes)
    (manufacturerIdLengthBytes : Nat) (sysexPayloadBytes : Option Bytes)
    (sysexPayloadLengthBytes : Nat) : Envelope Table :=
  (Packet.systemExclusiveMessage.toByte,
    .systemExclusiveMessage (createVector manufacturerIdBytes manufacturerIdLengthBytes)
      (createVector sysexPayloadBytes sysexPayloadLengthBytes))

inductive BuilderCall where
  | ping (sequenceNumber : UInt32) (timestampValue : UInt64)
  | noteOff (midiChannelNumber noteNumber velocityValue : UInt8)
  | noteOn (midiChannelNumber noteNumber velocityValue : UInt8)
  | polyphonicKeyPressure (midiChannelNumber noteNumber pressureValue : UInt8)
  | controlChange (midiChannelNumber controllerNumber controllerValue : UInt8)
  | programChange (midiChannelNumber programNumber : UInt8)
  | channelPressure (midiChannelNumber pressureValue : UInt8)
  | pitchBend (midiChannelNumber : UInt8) (pitchBendValue : UInt16)
  | timeCodeQuarterFrame (quarterFrameValue : UInt8)
  | songPositionPointer (songPositionBeats : UInt16)
  | songSelect (songNumber : UInt8)
  | tuneRequest
  | systemRealTime (realTimeMessageType : SystemRealTimeType)
  | systemExclusive (manufacturerIdBytes : Option Bytes) (manufacturerIdLengthBytes : Nat)
      (sysexPayloadBytes : Option Bytes) (sysexPayloadLengthBytes : Nat)

def BuilderCall.build : BuilderCall → Envelope Table
  | .ping sequence timestamp => buildPingMessage sequence timestamp
  | .noteOff channel note velocity => buildNoteOffMessage channel note velocity
  | .noteOn channel note velocity => buildNoteOnMessage channel note velocity
  | .polyphonicKeyPressure channel note pressure =>
      buildPolyphonicKeyPressureMessage channel note pressure
  | .controlChange channel controller value => buildControlChangeMessage channel controller value
  | .programChange channel program => buildProgramChangeMessage channel program
  | .channelPressure channel pressure => buildChannelPressureMessage channel pressure
  | .pitchBend channel value => buildPitchBendMessage channel value
  | .timeCodeQuarterFrame value => buildTimeCodeQuarterFrameMessage value
  | .songPositionPointer beats => buildSongPositionPointerMessage beats
  | .songSelect number => buildSongSelectMessage number
  | .tuneRequest => buildTuneRequestMessage
  | .systemRealTime type => buildSystemRealTimeMessage type
  | .systemExclusive manufacturerId idLength payload payloadLength =>
      buildSystemExclusiveMessage manufacturerId idLength payload payloadLength

/-! ## What is said -/

inductive MidiMessage where
  | ping (sequence : UInt32) (timestamp : UInt64)
  | noteOff (channel note velocity : UInt8)
  | noteOn (channel note velocity : UInt8)
  | polyphonicKeyPressure (channel note pressure : UInt8)
  | controlChange (channel controller value : UInt8)
  | programChange (channel program : UInt8)
  | channelPressure (channel pressure : UInt8)
  /-- A bend of 14 bits. -/
  | pitchBend (channel : UInt8) (bend : Nat)
  | timeCodeQuarterFrame (value : UInt16)
  | songPosition (beats : UInt16)
  | songSelect (number : UInt16)
  | tuneRequest
  | systemRealTime (type : SystemRealTimeType)
  | systemExclusive (manufacturerId payload : Option Bytes)
  deriving DecidableEq, Repr

/-- What a call means; of a bend the lowest 14 bits count, and a vector without bytes
is no vector. -/
def BuilderCall.meaning : BuilderCall → MidiMessage
  | .ping sequence timestamp => .ping sequence timestamp
  | .noteOff channel note velocity => .noteOff channel note velocity
  | .noteOn channel note velocity => .noteOn channel note velocity
  | .polyphonicKeyPressure channel note pressure => .polyphonicKeyPressure channel note pressure
  | .controlChange channel controller value => .controlChange channel controller value
  | .programChange channel program => .programChange channel program
  | .channelPressure channel pressure => .channelPressure channel pressure
  | .pitchBend channel value => .pitchBend channel (value.toNat % 2 ^ 14)
  | .timeCodeQuarterFrame value => .timeCodeQuarterFrame value.toUInt16
  | .songPositionPointer beats => .songPosition beats
  | .songSelect number => .songSelect number.toUInt16
  | .tuneRequest => .tuneRequest
  | .systemRealTime type => .systemRealTime type
  | .systemExclusive manufacturerId idLength payload payloadLength =>
      .systemExclusive (createVector manufacturerId idLength) (createVector payload payloadLength)

def Table.read : Table → MidiMessage
  | .ping sequence timestamp => .ping sequence timestamp
  | .channelMessage channel .noteOff data1 data2 => .noteOff channel data1 data2
  | .channelMessage channel .noteOn data1 data2 => .noteOn channel data1 data2
  | .channelMessage channel .polyphonicKeyPressure data1 data2 =>
      .polyphonicKeyPressure channel data1 data2
  | .channelMessage channel .controlChange data1 data2 => .controlChange channel data1 data2
  | .channelMessage channel .programChange data1 _ => .programChange channel data1
  | .channelMessage channel .channelPressure data1 _ => .channelPressure channel data1
  | .channelMessage channel .pitchBend data1 data2 =>
      .pitchBend channel (data1.toNat + 128 * data2.toNat)
  | .systemCommonMessage .timeCodeQuarterFrame value => .timeCodeQuarterFrame value
  | .systemCommonMessage .songPositionPointer value => .songPosition value
  | .systemCommonMessage .songSelect value => .songSelect value
  | .systemCommonMessage .tuneRequest _ => .tuneRequest
  | .systemRealTimeMessage type => .systemRealTime type
  | .systemExclusiveMessage manufacturerId payload => .systemExclusive manufacturerId payload

def BuilderCall.packet : BuilderCall → Packet
  | .ping .. => .ping
  | .noteOff .. | .noteOn .. | .polyphonicKeyPressure .. | .controlChange .. | .programChange ..
  | .channelPressure .. | .pitchBend .. => .channelMessage
  | .timeCodeQuarterFrame .. | .songPositionPointer .. | .songSelect .. | .tuneRequest =>
      .systemCommonMessage
  | .systemRealTime .. => .systemRealTimeMessage
  | .systemExclusive .. => .systemExclusiveMessage

theorem low_bits_toNat (value : UInt16) : (value &&& 0x7F).toUInt8.toNat = value.toNat % 128 := by
  have mask : value.toNat &&& 127 = value.toNat % 2 ^ 7 := Nat.and_two_pow_sub_one_eq_mod _ 7
  rw [UInt16.toNat_toUInt8, UInt16.toNat_and]
  change (value.toNat &&& 127) % 256 = _
  omega

/-- The two data bytes of a bend are its lowest 14 bits. -/
theorem pitchBend_bits (value : UInt16) :
    (value &&& 0x7F).toUInt8.toNat + 128 * ((value >>> 7) &&& 0x7F).toUInt8.toNat =
      value.toNat % 2 ^ 14 := by
  have shifted : (value >>> 7).toNat = value.toNat / 128 := by
    rw [UInt16.toNat_shiftRight, Nat.shiftRight_eq_div_pow]
    rfl
  rw [low_bits_toNat, low_bits_toNat, shifted]
  omega

theorem read_build (call : BuilderCall) : call.build.2.read = call.meaning := by
  cases call with
  | pitchBend channel value => exact congrArg _ (pitchBend_bits value)
  | _ => rfl

theorem case_build (call : BuilderCall) : format.case call.build.1 = some call.packet := by
  cases call <;> rfl

theorem belongs_build (call : BuilderCall) : Belongs call.build.1 call.build.2 := by
  cases call <;> rfl

def MidiMessage.envelope : MidiMessage → Envelope Table
  | .ping sequence timestamp => buildPingMessage sequence timestamp
  | .noteOff channel note velocity => buildNoteOffMessage channel note velocity
  | .noteOn channel note velocity => buildNoteOnMessage channel note velocity
  | .polyphonicKeyPressure channel note pressure =>
      buildPolyphonicKeyPressureMessage channel note pressure
  | .controlChange channel controller value => buildControlChangeMessage channel controller value
  | .programChange channel program => buildProgramChangeMessage channel program
  | .channelPressure channel pressure => buildChannelPressureMessage channel pressure
  | .pitchBend channel bend => buildPitchBendMessage channel (UInt16.ofNat bend)
  | .timeCodeQuarterFrame value =>
      buildSerializedSystemCommonMessageEnvelope .timeCodeQuarterFrame value
  | .songPosition beats => buildSongPositionPointerMessage beats
  | .songSelect number => buildSerializedSystemCommonMessageEnvelope .songSelect number
  | .tuneRequest => buildTuneRequestMessage
  | .systemRealTime type => buildSystemRealTimeMessage type
  | .systemExclusive manufacturerId payload =>
      (Packet.systemExclusiveMessage.toByte, .systemExclusiveMessage manufacturerId payload)

theorem buildPitchBendMessage_mod (channel : UInt8) (value : UInt16) :
    buildPitchBendMessage channel (UInt16.ofNat (value.toNat % 2 ^ 14)) =
      buildPitchBendMessage channel value := by
  have bound : value.toNat % 2 ^ 14 < UInt16.size :=
    Nat.lt_of_lt_of_le (Nat.mod_lt _ (by decide)) (by decide)
  have shifted (number : UInt16) : (number >>> 7).toNat = number.toNat / 128 := by
    rw [UInt16.toNat_shiftRight, Nat.shiftRight_eq_div_pow]
    rfl
  have low : (UInt16.ofNat (value.toNat % 2 ^ 14) &&& 0x7F).toUInt8 = (value &&& 0x7F).toUInt8 := by
    rw [← UInt8.toNat_inj, low_bits_toNat, low_bits_toNat, UInt16.toNat_ofNat_of_lt' bound]
    omega
  have high : ((UInt16.ofNat (value.toNat % 2 ^ 14) >>> 7) &&& 0x7F).toUInt8 =
      ((value >>> 7) &&& 0x7F).toUInt8 := by
    rw [← UInt8.toNat_inj, low_bits_toNat, low_bits_toNat, shifted, shifted,
      UInt16.toNat_ofNat_of_lt' bound]
    omega
  rw [buildPitchBendMessage, low, high]
  rfl

theorem build_eq_envelope (call : BuilderCall) : call.build = call.meaning.envelope := by
  cases call with
  | pitchBend channel value => exact (buildPitchBendMessage_mod channel value).symm
  | _ => rfl

/-- Two calls look the same to a receiver exactly when they mean the same. -/
theorem build_eq_iff (first second : BuilderCall) :
    first.build = second.build ↔ first.meaning = second.meaning := by
  constructor
  · intro same
    rw [← read_build, ← read_build, same]
  · intro same
    rw [build_eq_envelope, build_eq_envelope, same]

/-! ## Over the loopback -/

/-- The messages a receiver reads out of what its handlers were invoked with. -/
def heard (delivered : List (Packet × Table)) : List (Packet × MidiMessage) :=
  delivered.map fun invocation => (invocation.1, invocation.2.read)

theorem heard_expectedDeliveries (code : TableCode Table) (registered : Packet → Bool)
    (calls : List BuilderCall) :
    heard (expectedDeliveries format code registered (calls.map BuilderCall.build)) =
      (calls.filter fun call =>
        decide ((code.finish call.build.1 call.build.2).length ≤ kMaxFrameSize) &&
          registered call.packet).map fun call => (call.packet, call.meaning) := by
  induction calls with
  | nil => rfl
  | cons call rest ih =>
      rw [List.map_cons, expectedDeliveries_cons, heard, List.map_append, ← heard, ← heard, ih,
        List.filter_cons]
      simp only [expectedDeliveries, List.filterMap_cons, List.filterMap_nil, case_build,
        Option.bind_some]
      by_cases small : (code.finish call.build.1 call.build.2).length ≤ kMaxFrameSize
      · rw [if_pos small, decide_eq_true small, Bool.true_and]
        cases listens : registered call.packet with
        | true =>
            simp only [if_true, heard, List.map_cons, List.map_nil, read_build, List.cons_append,
              List.nil_append]
        | false => rfl
      · rw [if_neg small, decide_eq_false small, Bool.false_and]
        rfl

/-- **MIDI arrives as it was meant**: whatever calls of the builders are sent, their
receiver hears the messages that fit into a frame and have a handler, in order, each
once and with its meaning. -/
theorem midi_messages_arrive {code : TableCode Table} (inverts : code.Inverts format Belongs)
    (sizeType : SizeType) (registered : Packet → Bool) (behind : TransmitBuffers → Memory)
    (buffers : TransmitBuffers) (calls : List BuilderCall) :
    heard (Loopback.sendAll sizeType format code registered behind ⟨.new true, buffers, []⟩
        (calls.map BuilderCall.build)).2.delivered =
      (calls.filter fun call =>
        decide ((code.finish call.build.1 call.build.2).length ≤ kMaxFrameSize) &&
          registered call.packet).map fun call => (call.packet, call.meaning) := by
  have known : ∀ envelope ∈ calls.map BuilderCall.build,
      (format.case envelope.1).isSome ∧ Belongs envelope.1 envelope.2 := by
    intro envelope member
    obtain ⟨call, _, rfl⟩ := List.mem_map.mp member
    exact ⟨by rw [case_build, Option.isSome_some], belongs_build call⟩
  have writes : (⟨.new true, buffers, []⟩ : Loopback Packet Table).transport.writeRegistered =
      true := rfl
  have delivered := (Loopback.sendAll_delivers inverts sizeType registered behind
    (calls.map BuilderCall.build) known writes).2
  rw [delivered, List.nil_append, heard_expectedDeliveries]

/-! ### Recorded messages -/

def Table.ofFields : UInt8 → List FieldValue → Table
  | 1, [.scalar sequence, .scalar timestamp] => .ping (.ofNat sequence) (.ofNat timestamp)
  | 2, [.scalar channel, .scalar messageType, .scalar data1, .scalar data2] =>
      .channelMessage (.ofNat channel) (.ofNat messageType) (.ofNat data1) (.ofNat data2)
  | 3, [.scalar messageType, .scalar value] =>
      .systemCommonMessage (.ofNat messageType) (.ofNat value)
  | 4, [.scalar messageType] => .systemRealTimeMessage (.ofNat messageType)
  | _, [.vector manufacturerId, .vector payload] => .systemExclusiveMessage manufacturerId payload
  | _, _ => .systemExclusiveMessage none none

/-- The buffers of a note, of a bend and of a system exclusive message. -/
def recordings : List (Envelope Table × Bytes) :=
  [(buildNoteOnMessage 1 60 100,
    [0x10, 0, 0, 0, 0x4D, 0x32, 0x50, 0x57, 8, 0, 0x0C, 0, 7, 0, 8, 0, 8, 0, 0, 0, 0, 0, 0, 2,
      0x10, 0, 0, 0, 0x0C, 0, 8, 0, 4, 0, 5, 0, 6, 0, 7, 0, 0x0C, 0, 0, 0, 1, 1, 0x3C, 0x64]),
  (buildPitchBendMessage 2 0xFFFF,
    [0x10, 0, 0, 0, 0x4D, 0x32, 0x50, 0x57, 8, 0, 0x0C, 0, 7, 0, 8, 0, 8, 0, 0, 0, 0, 0, 0, 2,
      0x10, 0, 0, 0, 0x0C, 0, 8, 0, 4, 0, 5, 0, 6, 0, 7, 0, 0x0C, 0, 0, 0, 2, 6, 0x7F, 0x7F]),
  (buildSystemExclusiveMessage (some [0x7D]) 1 (some [1, 2, 3]) 3,
    [0x10, 0, 0, 0, 0x4D, 0x32, 0x50, 0x57, 8, 0, 0x0C, 0, 7, 0, 8, 0, 8, 0, 0, 0, 0, 0, 0, 5,
      0x0C, 0, 0, 0, 8, 0, 0x0C, 0, 4, 0, 8, 0, 8, 0, 0, 0, 0x10, 0, 0, 0, 4, 0, 0, 0, 3, 0, 0, 0,
      1, 2, 3, 0, 1, 0, 0, 0, 0x7D, 0, 0, 0])]

def midiCode : TableCode Table :=
  recordedTables format.identifier members Table.ofFields recordings

theorem midiCode_inverts : midiCode.Inverts format Belongs :=
  recordedTables_inverts rfl (by decide +kernel)

/-- A bend keeps its 14 bits. -/
theorem midi_messages_arrive_bend :
    heard (Loopback.sendAll .bits32 format midiCode (fun _ => true) (fun _ _ => 0xCD)
        ⟨.new true, ⟨fun _ => .zeros, 0⟩, []⟩
        ([.noteOn 1 60 100, .systemExclusive (some [0x7D]) 1 (some [1, 2, 3]) 3,
          .pitchBend 2 0xFFFF].map BuilderCall.build)).2.delivered =
      [(.channelMessage, .noteOn 1 60 100),
        (.systemExclusiveMessage, .systemExclusive (some [0x7D]) (some [1, 2, 3])),
        (.channelMessage, .pitchBend 2 0x3FFF)] :=
  (midi_messages_arrive midiCode_inverts .bits32 (fun _ => true) (fun _ _ => 0xCD)
    ⟨fun _ => .zeros, 0⟩ [.noteOn 1 60 100, .systemExclusive (some [0x7D]) 1 (some [1, 2, 3]) 3,
      .pitchBend 2 0xFFFF]).trans (by decide +kernel)

end MidiEndpoint

end Libcomm
