import Libcomm.EndpointIsolation
import Libcomm.FrameSender

/-!
# Endpoints back to back

The write callback of one endpoint is the receiver of another, as in the harnesses of
the endpoints and over the bus of the desktop example: a message is built, framed,
taken apart and dispatched before `Send` returns.  Of the generated code it is used
that a finished buffer can be verified and read back.
-/

set_option autoImplicit false

namespace Libcomm

open FlatBuffers ReadTrace

/-! ## Messages -/

/-- The generated code with its builder, for the tables of a schema. -/
structure TableCode (Table : Type) extends GeneratedCode where
  /-- `CreateEnvelope` and `Finish`, for a type of message. -/
  finish : UInt8 → Table → Bytes
  /-- The message in the envelope, as a handler sees it. -/
  table : Memory → UInt8 → Table

def Holds (memory : Memory) (bytes : Bytes) : Prop :=
  ∀ offset < bytes.length, memory offset = bytes.getD offset 0

/-- A finished buffer of the size of a frame, its table being one of its type, is
verified, and opens as what it was built from. -/
structure TableCode.Inverts {Table Message : Type} (code : TableCode Table)
    (format : EnvelopeFormat Message) (belongs : UInt8 → Table → Prop) : Prop where
  identifies : code.Identifies format.identifier
  verified : ∀ {type table memory message}, format.case type = some message →
    belongs type table → (code.finish type table).length ≤ kMaxFrameSize →
    Holds memory (code.finish type table) →
    (code.verifyEnvelopeBuffer memory (code.finish type table).length).value = true
  opened : ∀ {type table memory message}, format.case type = some message →
    belongs type table → (code.finish type table).length ≤ kMaxFrameSize →
    Holds memory (code.finish type table) →
    (code.getEnvelope memory).value = true ∧ (code.messageType memory).value = type ∧
      (code.messageAs memory type).value = true ∧ code.table memory type = table

abbrev Envelope (Table : Type) := UInt8 × Table

/-! ## The loopback -/

/-- Both ends: the sender with the static buffers, and the messages that handlers of
the receiver were invoked with. -/
structure Loopback (Message Table : Type) where
  transport : FrameTransport
  buffers : TransmitBuffers
  delivered : List (Message × Table)

section Loopback
variable {Message Table : Type}

def receiveFrame (sizeType : SizeType) (format : EnvelopeFormat Message) (code : TableCode Table)
    (registered : Message → Bool) (receivedData : Memory) (receivedSizeBytes : Nat) :
    Bool × Option (Message × Table) :=
  let handled := handleReceived sizeType (handleFrame format code.toGeneratedCode registered)
    receivedData receivedSizeBytes
  let payload := payloadData receivedData
  (handled.1, (invoked handled).map fun message =>
    (message, code.table payload (code.messageType payload).value))

/-- A frame in the transmit buffer, with what is left there from earlier frames. -/
def frameMemory (frame : Bytes) (behind : Memory) : Memory :=
  fun offset => frame.getD offset (behind offset)

/-- `Send` of an endpoint whose write callback is `HandleIncoming` of another. -/
def Loopback.send (sizeType : SizeType) (format : EnvelopeFormat Message) (code : TableCode Table)
    (registered : Message → Bool) (behind : TransmitBuffers → Memory)
    (loopback : Loopback Message Table) (envelope : Envelope Table) :
    Bool × Loopback Message Table :=
  let arguments := SendArguments.ofBytes (code.finish envelope.1 envelope.2)
  -- the frame does not depend on what the callback returns
  let handed := (loopback.transport.send arguments true loopback.buffers).2.1
  let (accepted, delivered) :=
    match handed with
    | some frame => receiveFrame sizeType format code registered
        (frameMemory frame (behind loopback.buffers)) frame.length
    | none => (false, none)
  let (result, _, transport, buffers) :=
    loopback.transport.send arguments accepted loopback.buffers
  (result, ⟨transport, buffers, loopback.delivered ++ delivered.toList⟩)

def Loopback.sendAll (sizeType : SizeType) (format : EnvelopeFormat Message)
    (code : TableCode Table) (registered : Message → Bool) (behind : TransmitBuffers → Memory) :
    Loopback Message Table → List (Envelope Table) → List Bool × Loopback Message Table
  | loopback, [] => ([], loopback)
  | loopback, envelope :: rest =>
      let (result, loopback) := loopback.send sizeType format code registered behind envelope
      let (results, loopback) := loopback.sendAll sizeType format code registered behind rest
      (result :: results, loopback)

/-! ## One message -/

theorem holds_payload (sequenceNumber : UInt16) (payload : Bytes) (behind : Memory) :
    Holds (payloadData (frameMemory (encodeFrame sequenceNumber payload) behind)) payload := by
  intro offset inside
  have header : (frameHeader sequenceNumber payload.length).length = kHeaderSize :=
    frameHeader_length _ _
  rw [payloadData, frameMemory, encodeFrame, frameMessage, List.append_assoc,
    List.getD_append_right _ _ _ _ (by omega), header, Nat.add_sub_cancel_left,
    List.getD_append _ _ _ _ inside, List.getD_eq_getElem _ _ inside,
    List.getD_eq_getElem _ _ inside]

theorem holds_frameMemory (bytes : Bytes) (behind : Memory) :
    Holds (frameMemory bytes behind) bytes := by
  intro offset inside
  rw [frameMemory, List.getD_eq_getElem _ _ inside, List.getD_eq_getElem _ _ inside]

theorem range_frameMemory (frame : Bytes) (behind : Memory) :
    (List.range frame.length).map (frameMemory frame behind) = frame := by
  refine List.ext_getElem (by simp) ?_
  intro offset _ inside
  rw [List.getElem_map, List.getElem_range, frameMemory, List.getD_eq_getElem _ _ inside]

theorem handleReceived_encodeFrame (sizeType : SizeType) (sequenceNumber : UInt16)
    {payload : Bytes} (small : payload.length ≤ kMaxFrameSize) (behind : Memory)
    (frame : Option Memory → Nat → Reading (Bool × Option Message)) :
    let receivedData := frameMemory (encodeFrame sequenceNumber payload) behind
    let handled := frame (some (payloadData receivedData)) payload.length
    handleReceived sizeType frame receivedData (encodeFrame sequenceNumber payload).length =
      (handled.value.1, some (payload.length, handled)) := by
  intro receivedData handled
  have fits : (encodeFrame sequenceNumber payload).length ≤
      kHeaderSize + kMaxFrameSize + kCrcSize := by
    rw [encodeFrame_length]
    omega
  rw [handleReceived, range_frameMemory, handleIncoming_eq sizeType _ _ _ _ (Nat.le_refl _) fits,
    if_pos ⟨validFrame_encodeFrame sequenceNumber payload small,
      frameSize_encodeFrame sequenceNumber payload small⟩,
    framePayload_encodeFrame sequenceNumber payload small]

variable {format : EnvelopeFormat Message} {code : TableCode Table}
  {belongs : UInt8 → Table → Prop}

theorem handleFrame_finished (inverts : code.Inverts format belongs)
    (registered : Message → Bool) {type : UInt8} {table : Table} {message : Message}
    (case : format.case type = some message) (own : belongs type table)
    (small : (code.finish type table).length ≤ kMaxFrameSize) {payload : Memory}
    (holds : Holds payload (code.finish type table)) :
    (handleFrame format code.toGeneratedCode registered (some payload)
        (code.finish type table).length).value =
      (true, if registered message then some message else none) := by
  obtain ⟨present, typed, taken, _⟩ := inverts.opened case own small holds
  rw [handleFrame_value inverts.identifies, if_pos (inverts.verified case own small holds),
    openEnvelope, if_pos present, typed, case]
  simp only [handleCase_value, taken, true_and]

/-- A framed envelope is accepted, and its handler gets the table it was built from. -/
theorem receiveFrame_finished (inverts : code.Inverts format belongs) (sizeType : SizeType)
    (registered : Message → Bool) (behind : Memory) (sequenceNumber : UInt16) {type : UInt8}
    {table : Table} {message : Message} (case : format.case type = some message)
    (own : belongs type table) (small : (code.finish type table).length ≤ kMaxFrameSize) :
    receiveFrame sizeType format code registered
        (frameMemory (encodeFrame sequenceNumber (code.finish type table)) behind)
        (encodeFrame sequenceNumber (code.finish type table)).length =
      (true, if registered message then some (message, table) else none) := by
  have holds := holds_payload sequenceNumber (code.finish type table) behind
  obtain ⟨_, typed, _, contents⟩ := inverts.opened case own small holds
  simp only [receiveFrame, handleReceived_encodeFrame sizeType sequenceNumber small behind, invoked,
    Option.bind_some, handleFrame_finished inverts registered case own small holds, typed, contents]
  cases registered message <;> rfl

/-! ## Any number of messages -/

/-- What the handlers are to see: the messages that fit into a frame and have a
handler, in order. -/
def expectedDeliveries (format : EnvelopeFormat Message) (code : TableCode Table)
    (registered : Message → Bool) (envelopes : List (Envelope Table)) : List (Message × Table) :=
  envelopes.filterMap fun envelope =>
    if (code.finish envelope.1 envelope.2).length ≤ kMaxFrameSize then
      (format.case envelope.1).bind fun message =>
        if registered message then some (message, envelope.2) else none
    else none

theorem send_result {transport : FrameTransport} (writes : transport.writeRegistered = true)
    (payload : Bytes) (writeSucceeded : Bool) (buffers : TransmitBuffers) :
    (transport.send (.ofBytes payload) writeSucceeded buffers).1 =
        (decide (payload.length ≤ kMaxFrameSize) && writeSucceeded) ∧
      (transport.send (.ofBytes payload) writeSucceeded buffers).2.2.1.writeRegistered = true := by
  have valid : ¬ (SendArguments.ofBytes payload).Invalid := fun invalid => nomatch invalid.1
  have sent : (SendArguments.ofBytes payload).payload = payload := List.take_length
  simp only [FrameTransport.send, if_neg valid]
  rcases transport.nextSequence.2.transmitFrame_cases transport.nextSequence.1 valid
      writeSucceeded buffers with ⟨missing | large, result⟩ | ⟨small, _, result⟩
  · exact absurd (writes.symm.trans missing) (by decide)
  · rw [sent] at large
    rw [result, decide_eq_false (by omega), Bool.false_and]
    exact ⟨rfl, writes⟩
  · rw [sent] at small
    rw [result, decide_eq_true small, Bool.true_and]
    exact ⟨rfl, writes⟩

theorem Loopback.send_delivers (inverts : code.Inverts format belongs) (sizeType : SizeType)
    (registered : Message → Bool) (behind : TransmitBuffers → Memory)
    {loopback : Loopback Message Table} (writes : loopback.transport.writeRegistered = true)
    {envelope : Envelope Table} {message : Message} (case : format.case envelope.1 = some message)
    (own : belongs envelope.1 envelope.2) :
    let sent := loopback.send sizeType format code registered behind envelope
    sent.1 = decide ((code.finish envelope.1 envelope.2).length ≤ kMaxFrameSize) ∧
      sent.2.transport.writeRegistered = true ∧
      sent.2.delivered = loopback.delivered ++
        expectedDeliveries format code registered [envelope] := by
  intro sent
  have handed := FrameTransport.send_handed writes
    (.ofBytes (code.finish envelope.1 envelope.2)) true loopback.buffers
  have valid : ¬ (SendArguments.ofBytes (code.finish envelope.1 envelope.2)).Invalid :=
    fun invalid => nomatch invalid.1
  have payload : (SendArguments.ofBytes (code.finish envelope.1 envelope.2)).payload =
      code.finish envelope.1 envelope.2 := List.take_length
  rw [payload] at handed
  have result := fun accepted =>
    send_result writes (code.finish envelope.1 envelope.2) accepted loopback.buffers
  by_cases small : (code.finish envelope.1 envelope.2).length ≤ kMaxFrameSize
  · rw [if_pos ⟨valid, small⟩] at handed
    have received := receiveFrame_finished inverts sizeType registered (behind loopback.buffers)
      loopback.transport.nextSequenceNumber case own small
    simp only [sent, Loopback.send, handed, received, result, expectedDeliveries,
      List.filterMap_cons, List.filterMap_nil, if_pos small, case, Option.bind_some]
    refine ⟨Bool.and_true _, trivial, ?_⟩
    cases registered message <;> rfl
  · rw [if_neg fun both => small both.2] at handed
    simp only [sent, Loopback.send, handed, result, expectedDeliveries, List.filterMap_cons,
      List.filterMap_nil, if_neg small, Option.toList_none]
    exact ⟨Bool.and_false _ |>.trans (decide_eq_false small).symm, trivial, trivial⟩

theorem expectedDeliveries_cons (registered : Message → Bool) (envelope : Envelope Table)
    (rest : List (Envelope Table)) :
    expectedDeliveries format code registered (envelope :: rest) =
      expectedDeliveries format code registered [envelope] ++
        expectedDeliveries format code registered rest :=
  List.filterMap_append (l := [envelope])

theorem Loopback.sendAll_delivers (inverts : code.Inverts format belongs) (sizeType : SizeType)
    (registered : Message → Bool) (behind : TransmitBuffers → Memory)
    (envelopes : List (Envelope Table))
    (known : ∀ envelope ∈ envelopes,
      (format.case envelope.1).isSome ∧ belongs envelope.1 envelope.2)
    {loopback : Loopback Message Table} (writes : loopback.transport.writeRegistered = true) :
    let sent := loopback.sendAll sizeType format code registered behind envelopes
    sent.1 = envelopes.map (fun envelope =>
        decide ((code.finish envelope.1 envelope.2).length ≤ kMaxFrameSize)) ∧
      sent.2.delivered = loopback.delivered ++
        expectedDeliveries format code registered envelopes := by
  induction envelopes generalizing loopback with
  | nil => exact ⟨rfl, (List.append_nil _).symm⟩
  | cons envelope rest ih =>
      obtain ⟨typed, own⟩ := known envelope List.mem_cons_self
      obtain ⟨message, case⟩ := Option.isSome_iff_exists.mp typed
      obtain ⟨result, stillWrites, delivered⟩ :=
        Loopback.send_delivers inverts sizeType registered behind writes case own
      obtain ⟨results, others⟩ :=
        ih (fun other member => known other (List.mem_cons_of_mem _ member)) stillWrites
      refine ⟨?_, ?_⟩
      · rw [List.map_cons, ← result, ← results]
        rfl
      · rw [expectedDeliveries_cons, ← List.append_assoc, ← delivered, ← others]
        rfl

end Loopback

/-- **What is sent is what is handled**, in order and exactly once: `Send` succeeds for
the messages that fit into a frame, a handler registered for such a message is invoked
with the table it was built from, and nothing else is. -/
theorem loopback_delivers {Message Table : Type} {format : EnvelopeFormat Message}
    {code : TableCode Table} {belongs : UInt8 → Table → Prop}
    (inverts : code.Inverts format belongs) (sizeType : SizeType)
    (registered : Message → Bool) (behind : TransmitBuffers → Memory) (buffers : TransmitBuffers)
    (envelopes : List (Envelope Table))
    (known : ∀ envelope ∈ envelopes,
      (format.case envelope.1).isSome ∧ belongs envelope.1 envelope.2) :
    let sent := Loopback.sendAll sizeType format code registered behind ⟨.new true, buffers, []⟩
      envelopes
    sent.1 = envelopes.map (fun envelope =>
        decide ((code.finish envelope.1 envelope.2).length ≤ kMaxFrameSize)) ∧
      sent.2.delivered = expectedDeliveries format code registered envelopes :=
  Loopback.sendAll_delivers inverts sizeType registered behind envelopes known rfl

/-! ### Recorded buffers -/

/-- Code whose builder makes the recorded buffers; no other table fits into a frame. -/
def recordedTables {Table : Type} [DecidableEq Table] (identifier : List UInt8)
    (members : Nat → Option (List FieldType)) (ofFields : UInt8 → List FieldValue → Table)
    (recordings : List (Envelope Table × Bytes)) : TableCode Table where
  toGeneratedCode := envelopeCode identifier members
  finish type table :=
    (recordings.lookup (type, table)).getD (List.replicate (kMaxFrameSize + 1) 0)
  table memory type :=
    match members type.toNat with
    | some fields => ofFields type ((readMember memory type.toNat fields).value.getD [])
    | none => ofFields type []

structure Recorded {Table : Type} (code : TableCode Table) (envelope : Envelope Table)
    (buffer : Bytes) : Prop where
  verified : (code.verifyEnvelopeBuffer (frameMemory buffer fun _ => 0) buffer.length).value = true
  typed : (code.messageType (frameMemory buffer fun _ => 0)).value = envelope.1
  present : (code.messageAs (frameMemory buffer fun _ => 0) envelope.1).value = true
  contents : code.table (frameMemory buffer fun _ => 0) envelope.1 = envelope.2

instance {Table : Type} [DecidableEq Table] (code : TableCode Table) (envelope : Envelope Table)
    (buffer : Bytes) : Decidable (Recorded code envelope buffer) :=
  decidable_of_iff
    ((code.verifyEnvelopeBuffer (frameMemory buffer fun _ => 0) buffer.length).value = true ∧
      (code.messageType (frameMemory buffer fun _ => 0)).value = envelope.1 ∧
      (code.messageAs (frameMemory buffer fun _ => 0) envelope.1).value = true ∧
      code.table (frameMemory buffer fun _ => 0) envelope.1 = envelope.2)
    ⟨fun ⟨verified, typed, present, contents⟩ => ⟨verified, typed, present, contents⟩,
      fun ⟨verified, typed, present, contents⟩ => ⟨verified, typed, present, contents⟩⟩

theorem SameBelow.of_holds {first second : Memory} {bytes : Bytes} (front : Holds first bytes)
    (back : Holds second bytes) : SameBelow bytes.length first second :=
  fun offset inside => (front offset inside).trans (back offset inside).symm

theorem recordedTables_table_same {Table : Type} [DecidableEq Table] {identifier : List UInt8}
    {members : Nat → Option (List FieldType)} {ofFields : UInt8 → List FieldValue → Table}
    {recordings : List (Envelope Table × Bytes)} {first second : Memory} {size : Nat}
    (same : SameBelow size first second)
    (verified : (verifyBuffer first size identifier members).value = true) (type : UInt8) :
    (recordedTables identifier members ofFields recordings).table first type =
      (recordedTables identifier members ofFields recordings).table second type := by
  simp only [recordedTables]
  split
  · rename_i fields known
    rw [(follows_readMember type.toNat fields).eq_of_within
      (readMember_within (verified_of_accepted verified) known) same]
  · rfl

theorem recordedTables_inverts {Message Table : Type} [DecidableEq Table]
    {format : EnvelopeFormat Message} (length : format.identifier.length = 4)
    {members : Nat → Option (List FieldType)} {ofFields : UInt8 → List FieldValue → Table}
    {recordings : List (Envelope Table × Bytes)} {belongs : UInt8 → Table → Prop}
    (recorded : ∀ recording ∈ recordings,
      Recorded (recordedTables format.identifier members ofFields recordings) recording.1
        recording.2) :
    (recordedTables format.identifier members ofFields recordings).Inverts format belongs := by
  set code := recordedTables format.identifier members ofFields recordings with codeDef
  have decided : code.Decided := envelopeCode_decided members length
  have found {type : UInt8} {table : Table}
      (small : (code.finish type table).length ≤ kMaxFrameSize) :
      Recorded code (type, table) (code.finish type table) := by
    cases known : recordings.lookup (type, table) with
    | none =>
        simp only [codeDef, recordedTables, known, Option.getD_none, List.length_replicate] at small
        omega
    | some buffer =>
        obtain ⟨_, _, split, _⟩ := List.lookup_eq_some_iff.mp known
        have member := recorded ((type, table), buffer)
          (split ▸ List.mem_append_right _ List.mem_cons_self)
        simpa only [codeDef, recordedTables, known, Option.getD_some] using member
  refine ⟨envelopeCode_identifies members, ?_, ?_⟩
  · intro type table memory _ _ _ small holds
    have same := SameBelow.of_holds (holds_frameMemory (code.finish type table) fun _ => 0) holds
    exact (decided.verdict same).symm.trans (found small).verified
  · intro type table memory _ _ _ small holds
    have same := SameBelow.of_holds (holds_frameMemory (code.finish type table) fun _ => 0) holds
    obtain ⟨verified, typed, present, contents⟩ := found small
    refine ⟨rfl, (decided.messageType same verified).symm.trans typed,
      (decided.messageAs same verified type).symm.trans present,
      (recordedTables_table_same same verified type).symm.trans contents⟩

/-- What `BuildResponseMessage` makes of a refusal with error code 7. -/
def responseEnvelope : Bytes :=
  [8, 0, 0, 0, 0x50, 0x57, 0x4D, 0x58, 0xF4, 0xFF, 0xFF, 0xFF, 0, 0, 0, 7, 0x0C, 0, 0, 0, 8, 0,
    0x0C, 0, 7, 0, 8, 0, 8, 0, 0, 0, 0, 0, 0, 1, 7, 0, 0, 0]

def pwmCode : TableCode (List FieldValue) :=
  recordedTables PwmEndpoint.format.identifier PwmEndpoint.members (fun _ fields => fields)
    [((6, [.scalar 1, .scalar 5]), heartBeatEnvelope),
      ((7, [.scalar 1, .scalar 7]), responseEnvelope)]

theorem pwmCode_inverts : pwmCode.Inverts PwmEndpoint.format fun _ _ => True :=
  recordedTables_inverts rfl (by decide +kernel)

theorem loopback_delivers_two_messages :
    let sent := Loopback.sendAll .bits32 PwmEndpoint.format pwmCode
      (fun message => message = .heartBeat) (fun _ _ => 0xCD) ⟨.new true, ⟨fun _ => .zeros, 0⟩, []⟩
      [(7, [.scalar 1, .scalar 7]), (6, [.scalar 1, .scalar 5])]
    sent.1 = [true, true] ∧ sent.2.delivered = [(.heartBeat, [.scalar 1, .scalar 5])] := by
  have delivers := loopback_delivers pwmCode_inverts .bits32 (fun message => message = .heartBeat)
    (fun _ _ => 0xCD) ⟨fun _ => .zeros, 0⟩
    [(7, [.scalar 1, .scalar 7]), (6, [.scalar 1, .scalar 5])]
    (List.forall_mem_cons.mpr ⟨⟨rfl, trivial⟩, List.forall_mem_singleton.mpr ⟨rfl, trivial⟩⟩)
  exact ⟨delivers.1.trans (by decide +kernel), delivers.2.trans (by decide +kernel)⟩

end Libcomm
