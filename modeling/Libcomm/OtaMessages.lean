import Libcomm.EndpointLoopback
import Libcomm.OtaManager

/-!
# Update messages

The builders of the update endpoint, from their arguments to the tables they put into
an envelope, and what the manager is to handle when its overloads for messages are the
handlers of the endpoint.  The endpoint shares its line with others: their payloads do
not have its identifier, and it hands none of them on.
-/

set_option autoImplicit false

namespace Libcomm

namespace OtaEndpoint

/-! ## The schema -/

/-- The tables of the union.  A progress message has the fields of a report. -/
inductive Table where
  | otaBegin (message : OtaBegin) (versionString : Option String)
      (compressedSize compressedCrc32 : UInt32)
  | otaData (message : OtaData)
  | otaEnd (message : OtaEnd)
  | otaProgress (message : ProgressReport)
  | otaAbort (message : OtaAbort)
  deriving DecidableEq, Repr

def Message.toByte : Message → UInt8
  | .otaBegin => 1
  | .otaData => 2
  | .otaEnd => 3
  | .otaProgress => 4
  | .otaAbort => 5

def Table.message : Table → Message
  | .otaBegin .. => .otaBegin
  | .otaData _ => .otaData
  | .otaEnd _ => .otaEnd
  | .otaProgress _ => .otaProgress
  | .otaAbort _ => .otaAbort

def Belongs (type : UInt8) (table : Table) : Prop := type = table.message.toByte

theorem case_of_belongs {type : UInt8} {table : Table} (own : Belongs type table) :
    format.case type = some table.message := by
  subst own
  cases table <;> rfl

/-! ## The builders -/

/-- The fields of a compressed image keep their defaults. -/
def buildOtaBeginMessage (target : Target) (firmwareSize firmwareCrc32 : UInt32)
    (versionString : Option String) (totalChunks : UInt16) : Envelope Table :=
  (Message.otaBegin.toByte,
    .otaBegin ⟨target, firmwareSize, firmwareCrc32, totalChunks⟩ versionString 0 0)

def createVector (bytes : Option Bytes) (length : Nat) : Option Bytes :=
  match bytes with
  | some bytes => if length > 0 then some (bytes.take length) else none
  | none => none

def buildOtaDataMessage (target : Target) (chunkIndex : UInt16) (data : Option Bytes)
    (dataSize : Nat) : Envelope Table :=
  (Message.otaData.toByte, .otaData ⟨target, chunkIndex, createVector data dataSize⟩)

def buildOtaEndMessage (target : Target) : Envelope Table :=
  (Message.otaEnd.toByte, .otaEnd ⟨target⟩)

def buildOtaProgressMessage (target : Target) (status : OtaStatus)
    (chunksReceived totalChunks : UInt16) (errorMessage : Option String) : Envelope Table :=
  (Message.otaProgress.toByte,
    .otaProgress ⟨target, status, chunksReceived, totalChunks, errorMessage⟩)

def buildOtaAbortMessage (target : Target) (reason : Option String) : Envelope Table :=
  (Message.otaAbort.toByte, .otaAbort ⟨target, reason⟩)

inductive BuilderCall where
  | begin (target : Target) (firmwareSize firmwareCrc32 : UInt32)
      (versionString : Option String) (totalChunks : UInt16)
  | data (target : Target) (chunkIndex : UInt16) (chunk : Option Bytes) (dataSize : Nat)
  | end (target : Target)
  | progress (target : Target) (status : OtaStatus) (chunksReceived totalChunks : UInt16)
      (errorMessage : Option String)
  | abort (target : Target) (reason : Option String)

def BuilderCall.build : BuilderCall → Envelope Table
  | .begin target firmwareSize firmwareCrc32 versionString totalChunks =>
      buildOtaBeginMessage target firmwareSize firmwareCrc32 versionString totalChunks
  | .data target chunkIndex chunk dataSize => buildOtaDataMessage target chunkIndex chunk dataSize
  | .end target => buildOtaEndMessage target
  | .progress target status chunksReceived totalChunks errorMessage =>
      buildOtaProgressMessage target status chunksReceived totalChunks errorMessage
  | .abort target reason => buildOtaAbortMessage target reason

theorem belongs_build (call : BuilderCall) : Belongs call.build.1 call.build.2 := by
  cases call <;> rfl

/-! ## The handlers -/

/-- The handlers that are registered: the manager has none for progress messages. -/
def managerHandles : Message → Bool
  | .otaProgress => false
  | _ => true

/-- The overload of the manager that is bound for a table, with its argument. -/
def Table.input : Table → Option OtaInput
  | .otaBegin message .. => some (.beginMessage message)
  | .otaData message => some (.dataMessage message)
  | .otaEnd message => some (.endMessage message)
  | .otaProgress _ => none
  | .otaAbort message => some (.abortMessage message)

/-- What the manager handles while `HandleFrame` is handed a payload. -/
def messageIn (code : TableCode Table) (payload : Memory) (size : Nat) : Option OtaInput :=
  (handleFrame code.toGeneratedCode managerHandles (some payload) size).value.2.bind fun _ =>
    (code.table payload (code.messageType payload).value).input

/-- What the manager handles while payloads are handed to `HandleFrame` one by one, each
with the bytes that are behind it in the buffer. -/
def received (code : TableCode Table) : (Nat → Memory) → List Bytes → List OtaInput
  | _, [] => []
  | behind, payload :: rest =>
      (messageIn code (frameMemory payload (behind 0)) payload.length).toList ++
        received code (fun turn => behind (turn + 1)) rest

def BuilderCall.meaning : BuilderCall → Option OtaInput
  | .begin target firmwareSize firmwareCrc32 _ totalChunks =>
      some (.beginMessage ⟨target, firmwareSize, firmwareCrc32, totalChunks⟩)
  | .data target chunkIndex chunk dataSize =>
      some (.dataMessage ⟨target, chunkIndex, createVector chunk dataSize⟩)
  | .end target => some (.endMessage ⟨target⟩)
  | .progress .. => none
  | .abort target reason => some (.abortMessage ⟨target, reason⟩)

theorem input_build (call : BuilderCall) : call.build.2.input = call.meaning := by
  cases call <;> rfl

variable {code : TableCode Table}

theorem messageIn_build (inverts : code.Inverts format Belongs) (behind : Memory)
    (call : BuilderCall)
    (small : (code.finish call.build.1 call.build.2).length ≤ kMaxFrameSize) :
    messageIn code (frameMemory (code.finish call.build.1 call.build.2) behind)
      (code.finish call.build.1 call.build.2).length = call.meaning := by
  have own := belongs_build call
  have case := case_of_belongs own
  have holds := holds_frameMemory (code.finish call.build.1 call.build.2) behind
  obtain ⟨_, typed, _, contents⟩ := inverts.opened case own small holds
  rw [messageIn, handleFrame, handleFrame_finished inverts managerHandles case own small holds,
    typed, contents, input_build]
  cases call <;> rfl

/-! ## Other endpoints on the line -/

def Identified (payload : Bytes) : Bool :=
  (payload.drop 4).take 4 == format.identifier

theorem messageIn_of_foreign (identifies : code.Identifies format.identifier) (behind : Memory)
    {payload : Bytes} (foreign : Identified payload = false) :
    messageIn code (frameMemory payload behind) payload.length = none := by
  rw [messageIn, handleFrame, handleFrame_value identifies, if_neg]
  · rfl
  · intro verified
    obtain ⟨room, present⟩ := identifies _ _ verified
    have identified : (payload.drop 4).take 4 = format.identifier := by
      refine List.ext_getElem ?_ ?_
      · rw [List.length_take, List.length_drop]
        exact Nat.min_eq_left (by omega)
      · intro index _ inside
        have same := present index inside
        rw [holds_frameMemory payload behind (4 + index) (Nat.lt_of_lt_of_le
          (Nat.add_lt_add_left inside 4) room), List.getD_eq_getElem _ _ inside] at same
        rw [List.getElem_take, List.getElem_drop, ← same, List.getD_eq_getElem]
    rw [Identified, identified, beq_self_eq_true] at foreign
    cases foreign

/-- Of the payloads on the line the manager handles the messages, in order. -/
theorem received_eq (inverts : code.Inverts format Belongs) (behind : Nat → Memory)
    (payloads : List Bytes) (small : ∀ payload ∈ payloads, payload.length ≤ kMaxFrameSize)
    (calls : List BuilderCall)
    (carried : payloads.filter Identified =
      calls.map fun call => code.finish call.build.1 call.build.2) :
    received code behind payloads = calls.filterMap BuilderCall.meaning := by
  induction payloads generalizing behind calls with
  | nil =>
      cases List.map_eq_nil_iff.mp carried.symm
      rfl
  | cons payload rest ih =>
      have smaller := fun other member => small other (List.mem_cons_of_mem payload member)
      cases identified : Identified payload with
      | false =>
          rw [List.filter_cons_of_neg (by rw [identified]; exact Bool.false_ne_true)] at carried
          rw [received, messageIn_of_foreign inverts.identifies (behind 0) identified]
          exact ih _ smaller calls carried
      | true =>
          rw [List.filter_cons_of_pos identified] at carried
          obtain ⟨call, later, rfl, rfl, carriedLater⟩ := List.map_eq_cons_iff.mp carried.symm
          rw [received, messageIn_build inverts (behind 0) call (small _ List.mem_cons_self),
            ih _ smaller later carriedLater.symm, List.filterMap_cons]
          cases call.meaning <;> rfl

end OtaEndpoint

end Libcomm
