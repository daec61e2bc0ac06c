import Libcomm.Library.FlatBuffers
import Libcomm.ReceiveReads

/-!
# What the endpoints depend on

An endpoint may look past its payload for the identifier, but what it finds there
changes nothing: a buffer too short for the identifier is refused by the verifier
in any case.  The verifier also keeps the endpoints apart, so that a payload has at
most one of them to take it, and the order in which a receiver tries them is free.
What is assumed of the generated code is shown of code that reads FlatBuffers.
-/

set_option autoImplicit false

namespace Libcomm

open FlatBuffers ReadTrace

def SameBelow (size : Nat) (first second : Memory) : Prop :=
  ∀ offset < size, first offset = second offset

namespace GeneratedCode

/-- The verifier looks for the identifier where the size allows it. -/
def Identifies (generated : GeneratedCode) (identifier : List UInt8) : Prop :=
  ∀ memory size, (generated.verifyEnvelopeBuffer memory size).value = true →
    8 ≤ size ∧ ∀ index < identifier.length, memory (4 + index) = identifier.getD index 0

/-- The verifier judges the bytes it is told of, and they are what the accessors of a
verified buffer go by. -/
structure Decided (generated : GeneratedCode) : Prop where
  verdict : ∀ {first second size}, SameBelow size first second →
    (generated.verifyEnvelopeBuffer first size).value =
      (generated.verifyEnvelopeBuffer second size).value
  getEnvelope : ∀ {first second size}, SameBelow size first second →
    (generated.verifyEnvelopeBuffer first size).value = true →
    (generated.getEnvelope first).value = (generated.getEnvelope second).value
  messageType : ∀ {first second size}, SameBelow size first second →
    (generated.verifyEnvelopeBuffer first size).value = true →
    (generated.messageType first).value = (generated.messageType second).value
  messageAs : ∀ {first second size}, SameBelow size first second →
    (generated.verifyEnvelopeBuffer first size).value = true → ∀ type,
    (generated.messageAs first type).value = (generated.messageAs second type).value

/-- Code that goes by what it reads, and reads no more than it was told of. -/
theorem Decided.of_follows {generated : GeneratedCode} (verifier : generated.VerifierInside)
    (accessors : generated.AccessorsInside)
    (verdict : ∀ size, Reading.Follows fun memory => generated.verifyEnvelopeBuffer memory size)
    (envelope : Reading.Follows generated.getEnvelope)
    (type : Reading.Follows generated.messageType)
    (message : ∀ type, Reading.Follows fun memory => generated.messageAs memory type) :
    generated.Decided where
  verdict {first _ size} same :=
    congrArg Reading.value ((verdict size).eq_of_within (verifier first size) same)
  getEnvelope {first _ size} same verified :=
    congrArg Reading.value (envelope.eq_of_within (accessors first size verified).1 same)
  messageType {first _ size} same verified :=
    congrArg Reading.value (type.eq_of_within (accessors first size verified).2.1 same)
  messageAs {first _ size} same verified kind :=
    congrArg Reading.value
      ((message kind).eq_of_within ((accessors first size verified).2.2 kind).1 same)

end GeneratedCode

/-! ## What a frame comes to -/

section Frames
variable {Message : Type} {generated : GeneratedCode}

theorem bufferHasIdentifier_value (data : Memory) (identifier : List UInt8)
    (present : ∀ index < identifier.length, data (4 + index) = identifier.getD index 0) :
    (bufferHasIdentifier data identifier).value = true :=
  Reading.compare_value data 0 present

def openEnvelope (format : EnvelopeFormat Message) (generated : GeneratedCode)
    (registered : Message → Bool) (data : Memory) : Bool × Option Message :=
  if (generated.getEnvelope data).value then
    match format.case (generated.messageType data).value with
    | some message =>
        (true, (handleCase (format.order message) generated data
          (generated.messageType data).value message (registered message)).value)
    | none => (false, none)
  else (false, none)

theorem handleCase_value (order : CaseOrder) (data : Memory) (type : UInt8) (message : Message)
    (registered : Bool) :
    (handleCase order generated data type message registered).value =
      if (generated.messageAs data type).value ∧ registered then some message else none := by
  cases order with
  | messageFirst =>
      rw [handleCase, Reading.bind_value]
      by_cases present : (generated.messageAs data type).value = true
      · rw [if_pos present]
        cases registered <;> simp [present]
      · rw [if_neg present, if_neg fun both => present both.1]
        rfl
  | handlerFirst =>
      rw [handleCase]
      by_cases present : (generated.messageAs data type).value = true
      · cases registered <;> simp [present]
      · cases registered <;> simp [present]

/-- The verdict of the verifier decides, whatever the test of the identifier has read. -/
theorem handleFrame_value {format : EnvelopeFormat Message}
    (identifies : generated.Identifies format.identifier) (registered : Message → Bool)
    (data : Memory) (size : Nat) :
    (handleFrame format generated registered (some data) size).value =
      if (generated.verifyEnvelopeBuffer data size).value then
        openEnvelope format generated registered data
      else (false, none) := by
  rw [handleFrame]
  by_cases verified : (generated.verifyEnvelopeBuffer data size).value = true
  · obtain ⟨room, present⟩ := identifies data size verified
    rw [if_neg (by omega), if_pos verified, Reading.bind_value,
      bufferHasIdentifier_value data _ present, if_pos rfl, Reading.bind_value, if_pos verified,
      Reading.bind_value, openEnvelope]
    split
    · rw [Reading.bind_value]
      cases format.case (generated.messageType data).value <;> rfl
    · rfl
  · rw [if_neg verified]
    split
    · rfl
    · rw [Reading.bind_value]
      split
      · rw [Reading.bind_value, if_neg verified]
        rfl
      · rfl

theorem openEnvelope_same {first second : Memory} {size : Nat} (decided : generated.Decided)
    (same : SameBelow size first second)
    (verified : (generated.verifyEnvelopeBuffer first size).value = true)
    (format : EnvelopeFormat Message) (registered : Message → Bool) :
    openEnvelope format generated registered first =
      openEnvelope format generated registered second := by
  have type := decided.messageType same verified
  rw [openEnvelope, openEnvelope, decided.getEnvelope same verified, type]
  simp only [handleCase_value, decided.messageAs same verified]

theorem handleFrame_same {first second : Memory} {size : Nat} {format : EnvelopeFormat Message}
    (identifies : generated.Identifies format.identifier) (decided : generated.Decided)
    (same : SameBelow size first second) (registered : Message → Bool) :
    (handleFrame format generated registered (some first) size).value =
      (handleFrame format generated registered (some second) size).value := by
  rw [handleFrame_value identifies, handleFrame_value identifies, ← decided.verdict same]
  split
  · rename_i verified
    exact openEnvelope_same decided same verified format registered
  · rfl

theorem handleIncoming_handed (sizeType : SizeType) (data : Bytes) (size : Nat) :
    ∃ handed : Option Bytes,
      (∀ payload ∈ handed, payload.length ≤ data.length - kHeaderSize) ∧
      ∀ {State : Type} (handler : DataHandler State) (state : State),
        handleIncoming sizeType (some data) size (some handler) state =
          match handed with
          | some payload => handler payload state
          | none => (false, state) := by
  by_cases short : size < kHeaderSize + kCrcSize
  · exact ⟨none, nofun, fun handler state => if_pos short⟩
  by_cases wrong : ¬ (data.getD 0 0 = kProtocolVersion ∧
      size = expectedTotalSizeBytes sizeType (loadUInt32 data 4))
  · exact ⟨none, nofun, fun handler state => by
      simp only [handleIncoming, if_neg short, if_pos wrong]⟩
  by_cases mismatch :
      loadUInt32 data
          (sizeType.sub (expectedTotalSizeBytes sizeType (loadUInt32 data 4)) kCrcSize) ≠
        computeCrc32 data
          (sizeType.sub (expectedTotalSizeBytes sizeType (loadUInt32 data 4)) kCrcSize)
  · exact ⟨none, nofun, fun handler state => by
      simp only [handleIncoming, if_neg short, if_neg wrong, if_pos mismatch]⟩
  by_cases other : data.getD 1 0 ≠ FrameType.data.toByte
  · exact ⟨none, nofun, fun handler state => by
      simp only [handleIncoming, if_neg short, if_neg wrong, if_neg mismatch, if_pos other]⟩
  · refine ⟨some ((data.drop kHeaderSize).take (announcedSize data)), ?_, fun handler state => by
      simp only [handleIncoming, if_neg short, if_neg wrong, if_neg mismatch, if_neg other]
      rfl⟩
    rintro payload ⟨⟩
    rw [List.length_take, List.length_drop]
    exact Nat.min_le_right _ _

/-- What is seen of an endpoint: what it returns, and for a payload that it was handed
the handler that was invoked. -/
def seen (handled : Bool × Option (Nat × Reading (Bool × Option Message))) :
    Bool × Option (Nat × Bool × Option Message) :=
  (handled.1, handled.2.map fun handed => (handed.1, handed.2.value))

theorem handleReceived_same {first second : Memory} {size : Nat} {format : EnvelopeFormat Message}
    (identifies : generated.Identifies format.identifier) (decided : generated.Decided)
    (same : SameBelow size first second) (sizeType : SizeType) (registered : Message → Bool) :
    seen (handleReceived sizeType (handleFrame format generated registered) first size) =
      seen (handleReceived sizeType (handleFrame format generated registered) second size) := by
  have received : (List.range size).map first = (List.range size).map second :=
    List.map_congr_left fun offset member => same offset (List.mem_range.mp member)
  obtain ⟨handed, inside, calls⟩ :=
    handleIncoming_handed sizeType ((List.range size).map second) size
  rw [handleReceived, handleReceived, received, calls, calls]
  cases handed with
  | none => rfl
  | some payload =>
      have bound := inside payload rfl
      rw [List.length_map, List.length_range] at bound
      have behind : SameBelow payload.length (payloadData first) (payloadData second) :=
        fun offset below => same _ (by omega)
      simp only [seen, Option.map_some, handleFrame_same identifies decided behind registered]

end Frames

/-! ## The four endpoints -/

structure SchemaCode where
  midi : GeneratedCode
  pwm : GeneratedCode
  ota : GeneratedCode
  log : GeneratedCode

structure SchemaCode.Documented (code : SchemaCode) : Prop where
  midiIdentifies : code.midi.Identifies MidiEndpoint.format.identifier
  midiDecided : code.midi.Decided
  pwmIdentifies : code.pwm.Identifies PwmEndpoint.format.identifier
  pwmDecided : code.pwm.Decided
  otaIdentifies : code.ota.Identifies OtaEndpoint.format.identifier
  otaDecided : code.ota.Decided
  logIdentifies : code.log.Identifies LogEndpoint.format.identifier
  logDecided : code.log.Decided

/-! ### Code that reads FlatBuffers -/

/-- The code for a root table with a union, given the fields of its members. -/
def envelopeCode (identifier : List UInt8) (members : Nat → Option (List FieldType)) :
    GeneratedCode where
  verifyEnvelopeBuffer memory size := verifyBuffer memory size identifier members
  getEnvelope memory := do
    let _ ← follow memory 0
    pure true
  messageType memory := do
    let root ← follow memory 0
    let type ← unionType memory root
    pure (UInt8.ofNat type)
  messageAs memory type := do
    let member ← memberOf memory type.toNat
    pure member.isSome
  loggedFields memory type :=
    match members type.toNat with
    | some fields => do
        let _ ← readMember memory type.toNat fields
        pure ()
    | none => pure ()

section EnvelopeCode
variable {identifier : List UInt8} (members : Nat → Option (List FieldType))

theorem envelopeCode_verifierInside (length : identifier.length = 4) :
    (envelopeCode identifier members).VerifierInside :=
  fun _ _ => verifyBuffer_within length members

theorem envelopeCode_accessorsInside : (envelopeCode identifier members).AccessorsInside := by
  intro memory size accepted
  have verified := verified_of_accepted accepted
  have room := verified.room
  have root : (follow memory 0).Within size := follow_within (by omega)
  refine ⟨root.bind (Reading.within_pure size true),
    root.bind ((unionType_within verified.rooted).bind (Reading.within_pure size _)),
    fun type => ⟨(memberOf_within verified type.toNat).bind (Reading.within_pure size _), ?_⟩⟩
  rw [envelopeCode]
  dsimp only
  split
  · rename_i fields known
    exact (readMember_within verified known).bind (Reading.within_pure size ())
  · exact Reading.within_pure size ()

theorem envelopeCode_identifies : (envelopeCode identifier members).Identifies identifier := by
  intro memory size accepted
  have verified := verified_of_accepted accepted
  exact ⟨verified.room, Reading.present_of_compare memory 0 verified.identified⟩

theorem envelopeCode_decided (length : identifier.length = 4) :
    (envelopeCode identifier members).Decided := by
  have root := follows_follow 0
  exact .of_follows (envelopeCode_verifierInside members length)
    (envelopeCode_accessorsInside members)
    (fun size => follows_verifyBuffer size identifier members)
    (root.bind fun _ => Reading.follows_pure true)
    (root.bind fun table => (follows_unionType table).bind fun _ => Reading.follows_pure _)
    fun type => (follows_memberOf type.toNat).bind fun _ => Reading.follows_pure _

end EnvelopeCode

/-! ### The four schemas -/

def MidiEndpoint.members : Nat → Option (List FieldType)
  | 1 => some [.scalar 4 0, .scalar 8 0]
  | 2 => some [.scalar 1 0, .scalar 1 0, .scalar 1 0, .scalar 1 0]
  | 3 => some [.scalar 1 0, .scalar 2 0]
  | 4 => some [.scalar 1 0]
  | 5 => some [.vector false, .vector false]
  | _ => none

/-- Of the power stage the messages without tables in them. -/
def PwmEndpoint.members : Nat → Option (List FieldType)
  | 5 => some [.scalar 1 0, .scalar 2 0]
  | 6 => some [.scalar 1 0, .scalar 2 0]
  | 7 => some [.scalar 1 0, .scalar 4 0]
  | _ => none

def OtaEndpoint.members : Nat → Option (List FieldType)
  | 1 => some [.scalar 1 0, .scalar 4 0, .scalar 4 0, .vector true, .scalar 2 0, .scalar 4 0,
      .scalar 4 0]
  | 2 => some [.scalar 1 0, .scalar 2 0, .vector false]
  | 3 => some [.scalar 1 0]
  | 4 => some [.scalar 1 0, .scalar 1 0, .scalar 2 0, .scalar 2 0, .vector true]
  | 5 => some [.scalar 1 0, .vector true]
  | _ => none

def LogEndpoint.members : Nat → Option (List FieldType)
  | 1 => some [.scalar 1 2, .vector true, .vector true]
  | _ => none

def schemaCode : SchemaCode :=
  ⟨envelopeCode MidiEndpoint.format.identifier MidiEndpoint.members,
    envelopeCode PwmEndpoint.format.identifier PwmEndpoint.members,
    envelopeCode OtaEndpoint.format.identifier OtaEndpoint.members,
    envelopeCode LogEndpoint.format.identifier LogEndpoint.members⟩

theorem schemaCode_documented : schemaCode.Documented :=
  ⟨envelopeCode_identifies _, envelopeCode_decided _ rfl, envelopeCode_identifies _,
    envelopeCode_decided _ rfl, envelopeCode_identifies _, envelopeCode_decided _ rfl,
    envelopeCode_identifies _, envelopeCode_decided _ rfl⟩

/-- **Bytes behind the received data change nothing** that an endpoint returns or any
handler it invokes, also where the test of the identifier reads them. -/
theorem endpoints_ignore_bytes_behind (code : SchemaCode) (documented : code.Documented)
    (sizeType : SizeType) (first second : Memory) (receivedSizeBytes : Nat)
    (same : SameBelow receivedSizeBytes first second) :
    (∀ registered,
      seen (MidiEndpoint.handleIncoming sizeType code.midi registered first receivedSizeBytes) =
      seen (MidiEndpoint.handleIncoming sizeType code.midi registered second
        receivedSizeBytes)) ∧
    (∀ registered,
      seen (PwmEndpoint.handleIncoming sizeType code.pwm registered first receivedSizeBytes) =
      seen (PwmEndpoint.handleIncoming sizeType code.pwm registered second receivedSizeBytes)) ∧
    (∀ registered,
      seen (OtaEndpoint.handleIncoming sizeType code.ota registered first receivedSizeBytes) =
      seen (OtaEndpoint.handleIncoming sizeType code.ota registered second receivedSizeBytes)) ∧
    (∀ registered,
      seen (LogEndpoint.handleIncoming sizeType code.log registered first receivedSizeBytes) =
      seen (LogEndpoint.handleIncoming sizeType code.log registered second
        receivedSizeBytes)) := by
  refine ⟨fun registered => ?_, fun registered => ?_, fun registered => ?_,
    fun registered => ?_⟩
  · exact handleReceived_same documented.midiIdentifies documented.midiDecided same sizeType _
  · exact handleReceived_same documented.pwmIdentifies documented.pwmDecided same sizeType _
  · exact handleReceived_same documented.otaIdentifies documented.otaDecided same sizeType _
  · exact handleReceived_same documented.logIdentifies documented.logDecided same sizeType _

/-- The checksum ends in the first byte of the identifier, and in one of the memories
the second byte follows it. -/
theorem endpoints_ignore_bytes_behind_runaway_frame :
    let handled := fun behind : UInt8 => MidiEndpoint.handleIncoming .bits32 schemaCode.midi
      (fun _ => true) (fun offset => runawayFrame.getD offset behind) 13
    seen (handled 0x32) = seen (handled 0xCD) ∧
      (handled 0x32).2.map (fun handed => handed.2.reads) = some [4, 5, 6] ∧
      (handled 0xCD).2.map (fun handed => handed.2.reads) = some [4, 5] := by
  have length : runawayFrame.length = 13 := encodeFrame_length 1 [113]
  refine ⟨(endpoints_ignore_bytes_behind schemaCode schemaCode_documented .bits32 _ _ 13
    fun offset inside => ?_).1 fun _ => true, by decide +kernel, by decide +kernel⟩
  rw [List.getD_eq_getElem _ _ (length ▸ inside), List.getD_eq_getElem _ _ (length ▸ inside)]

/-! ## Which endpoint takes a payload -/

section Routing
variable {Message : Type} {generated : GeneratedCode} {format : EnvelopeFormat Message}

def invoked (handled : Bool × Option (Nat × Reading (Bool × Option Message))) : Option Message :=
  handled.2.bind fun handed => handed.2.value.2

theorem openEnvelope_refused (registered : Message → Bool) (data : Memory)
    (refused : (openEnvelope format generated registered data).1 = false) :
    (openEnvelope format generated registered data).2 = none := by
  rw [openEnvelope] at refused ⊢
  split at refused
  · rename_i opened
    rw [if_pos opened]
    split at refused
    · exact absurd refused.symm Bool.false_ne_true
    · rfl
  · rename_i closed
    rw [if_neg closed]

theorem invoked_of_refused (identifies : generated.Identifies format.identifier)
    (registered : Message → Bool) {sizeType : SizeType} {receivedData : Memory}
    {receivedSizeBytes : Nat}
    (refused : (handleReceived sizeType (handleFrame format generated registered) receivedData
      receivedSizeBytes).1 = false) :
    invoked (handleReceived sizeType (handleFrame format generated registered) receivedData
      receivedSizeBytes) = none := by
  obtain ⟨handed, _, calls⟩ := handleIncoming_handed sizeType
    ((List.range receivedSizeBytes).map receivedData) receivedSizeBytes
  rw [handleReceived, calls] at refused ⊢
  cases handed with
  | none => rfl
  | some payload =>
      simp only [handleFrame_value identifies] at refused
      simp only [invoked, Option.bind_some, handleFrame_value identifies]
      split at refused
      · rename_i verified
        rw [if_pos verified]
        exact openEnvelope_refused registered _ refused
      · rename_i unverified
        rw [if_neg unverified]

theorem identifier_of_accepted (identifies : generated.Identifies format.identifier)
    (registered : Message → Bool) {sizeType : SizeType} {receivedData : Memory}
    {receivedSizeBytes : Nat}
    (accepted : (handleReceived sizeType (handleFrame format generated registered) receivedData
      receivedSizeBytes).1 = true) :
    ∀ index < format.identifier.length,
      payloadData receivedData (4 + index) = format.identifier.getD index 0 := by
  obtain ⟨handed, _, calls⟩ := handleIncoming_handed sizeType
    ((List.range receivedSizeBytes).map receivedData) receivedSizeBytes
  rw [handleReceived, calls] at accepted
  cases handed with
  | none => exact absurd accepted Bool.false_ne_true
  | some payload =>
      simp only [handleFrame_value identifies] at accepted
      split at accepted
      · rename_i verified
        exact (identifies _ _ verified).2
      · exact absurd accepted Bool.false_ne_true

variable {Other : Type} {otherCode : GeneratedCode} {otherFormat : EnvelopeFormat Other}

theorem not_both_accepted (identifies : generated.Identifies format.identifier)
    (otherIdentifies : otherCode.Identifies otherFormat.identifier)
    (nonEmpty : 0 < format.identifier.length) (otherNonEmpty : 0 < otherFormat.identifier.length)
    (differ : format.identifier.getD 0 0 ≠ otherFormat.identifier.getD 0 0)
    (registered : Message → Bool) (otherRegistered : Other → Bool) (sizeType : SizeType)
    (receivedData : Memory) (receivedSizeBytes : Nat) :
    ¬ ((handleReceived sizeType (handleFrame format generated registered) receivedData
        receivedSizeBytes).1 = true ∧
      (handleReceived sizeType (handleFrame otherFormat otherCode otherRegistered) receivedData
        receivedSizeBytes).1 = true) := by
  rintro ⟨accepted, otherAccepted⟩
  have first := identifier_of_accepted identifies registered accepted 0 nonEmpty
  have second :=
    identifier_of_accepted otherIdentifies otherRegistered otherAccepted 0 otherNonEmpty
  exact differ (first.symm.trans second)

/-- The receiver of the desktop example: what the first endpoint refuses goes to the
second. -/
def combinedHandler (midi : Bool × Option (Nat × Reading (Bool × Option Message)))
    (pwm : Bool × Option (Nat × Reading (Bool × Option Other))) :
    Bool × Option Message × Option Other :=
  if midi.1 then (true, invoked midi, none) else (pwm.1, invoked midi, invoked pwm)

end Routing

/-- **At most one endpoint takes a frame**, and the combined receiver does what its
endpoints would do one by one: nothing that the second endpoint would have taken is
lost to the first, and nothing is handled twice. -/
theorem endpoints_exclusive (code : SchemaCode) (documented : code.Documented)
    (sizeType : SizeType) (receivedData : Memory) (receivedSizeBytes : Nat)
    (midiRegistered : MidiEndpoint.Packet → Bool) (pwmRegistered : PwmEndpoint.Message → Bool)
    (otaRegistered : OtaEndpoint.Message → Bool) (logRegistered : LogEndpoint.Message → Bool) :
    let midi := MidiEndpoint.handleIncoming sizeType code.midi midiRegistered receivedData
      receivedSizeBytes
    let pwm := PwmEndpoint.handleIncoming sizeType code.pwm pwmRegistered receivedData
      receivedSizeBytes
    let ota := OtaEndpoint.handleIncoming sizeType code.ota otaRegistered receivedData
      receivedSizeBytes
    let log := LogEndpoint.handleIncoming sizeType code.log logRegistered receivedData
      receivedSizeBytes
    [midi.1, pwm.1, ota.1, log.1].Pairwise (fun one other => ¬ (one = true ∧ other = true)) ∧
      combinedHandler midi pwm = (midi.1 || pwm.1, invoked midi, invoked pwm) := by
  intro midi pwm ota log
  have apart : ¬ (midi.1 = true ∧ pwm.1 = true) :=
    not_both_accepted documented.midiIdentifies documented.pwmIdentifies (by decide) (by decide)
      (by decide) _ _ sizeType receivedData receivedSizeBytes
  constructor
  · simp only [List.pairwise_cons, List.mem_cons, List.not_mem_nil, or_false]
    refine ⟨?_, ?_, ?_, nofun, .nil⟩
    · rintro other (rfl | rfl | rfl)
      · exact apart
      · exact not_both_accepted documented.midiIdentifies documented.otaIdentifies (by decide)
          (by decide) (by decide) _ _ sizeType receivedData receivedSizeBytes
      · exact not_both_accepted documented.midiIdentifies documented.logIdentifies (by decide)
          (by decide) (by decide) _ _ sizeType receivedData receivedSizeBytes
    · rintro other (rfl | rfl)
      · exact not_both_accepted documented.pwmIdentifies documented.otaIdentifies (by decide)
          (by decide) (by decide) _ _ sizeType receivedData receivedSizeBytes
      · exact not_both_accepted documented.pwmIdentifies documented.logIdentifies (by decide)
          (by decide) (by decide) _ _ sizeType receivedData receivedSizeBytes
    · rintro other rfl
      exact not_both_accepted documented.otaIdentifies documented.logIdentifies (by decide)
        (by decide) (by decide) _ _ sizeType receivedData receivedSizeBytes
  · rw [combinedHandler]
    by_cases taken : midi.1 = true
    · have refused : pwm.1 = false := Bool.eq_false_iff.mpr fun also => apart ⟨taken, also⟩
      have nothing : invoked pwm = none := invoked_of_refused documented.pwmIdentifies _ refused
      rw [if_pos taken, taken, nothing, Bool.true_or]
    · rw [if_neg taken, Bool.eq_false_iff.mpr taken, Bool.false_or]

/-- What `BuildHeartBeatMessage` makes of a request for telemetry and epoch 5. -/
def heartBeatEnvelope : Bytes :=
  [0x10, 0, 0, 0, 0x50, 0x57, 0x4D, 0x58, 8, 0, 0x0C, 0, 7, 0, 8, 0, 8, 0, 0, 0, 0, 0, 0, 6,
    0x0C, 0, 0, 0, 8, 0, 8, 0, 5, 0, 6, 0, 8, 0, 0, 0, 0, 1, 5, 0]

theorem endpoints_exclusive_heart_beat :
    let midi := MidiEndpoint.handleIncoming .bits32 schemaCode.midi (fun _ => true)
      (framedMemory heartBeatEnvelope) 56
    let pwm := PwmEndpoint.handleIncoming .bits32 schemaCode.pwm (fun _ => true)
      (framedMemory heartBeatEnvelope) 56
    combinedHandler midi pwm = (midi.1 || pwm.1, invoked midi, invoked pwm) ∧
      combinedHandler midi pwm = (true, none, some .heartBeat) := by
  have exclusive := endpoints_exclusive schemaCode schemaCode_documented .bits32
    (framedMemory heartBeatEnvelope) 56 (fun _ => true) (fun _ => true) (fun _ => true)
    fun _ => true
  exact ⟨exclusive.2, by decide +kernel⟩

end Libcomm
