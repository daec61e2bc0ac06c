import Libcomm.Crc32

/-!
# The firmware update manager

`OtaManager` with its handlers, each in the overload for a decoded message and
in the overload for plain values.  The manager carries what the flash writer
will answer and the history of a run: the handlers that were entered, the calls
of the writer with their answers, and the progress reports.  The progress
callback only listens.
-/

set_option autoImplicit false

namespace Libcomm

/-! ## Messages -/

inductive Target where
  | stm32
  | esp32
  deriving DecidableEq, Repr

inductive OtaStatus where
  | idle
  | preparing
  | receiving
  | verifying
  | applying
  | rebooting
  | error
  deriving DecidableEq, Repr

structure OtaBegin where
  target : Target
  firmwareSize : UInt32
  firmwareCrc32 : UInt32
  totalChunks : UInt16
  deriving DecidableEq, Repr

/-- The data vector of the message may be absent. -/
structure OtaData where
  target : Target
  chunkIndex : UInt16
  data : Option Bytes
  deriving DecidableEq, Repr

structure OtaEnd where
  target : Target
  deriving DecidableEq, Repr

structure OtaAbort where
  target : Target
  reason : Option String
  deriving DecidableEq, Repr

/-- The handlers and their arguments.  Data is a null pointer or the bytes of a
chunk. -/
inductive OtaInput where
  | beginMessage (message : OtaBegin)
  | beginValues (firmwareSize firmwareCrc32 : UInt32) (totalChunks : UInt16)
  | dataMessage (message : OtaData)
  | dataValues (chunkIndex : UInt16) (data : Option Bytes)
  | endMessage (message : OtaEnd)
  | endValues
  | abortMessage (message : OtaAbort)
  | abortValues (reason : Option String)
  deriving DecidableEq, Repr

/-! ## The flash writer and the progress callback -/

/-- Calls of `IFlashWriter`, with the answers they got. -/
inductive WriterCall where
  | maxFirmwareSize (answer : UInt32)
  | begin (firmwareSize : UInt32) (answer : Bool)
  | writeChunk (index : UInt16) (data : Bytes) (answer : Bool)
  | finish (answer : Bool)
  | verify (expectedCrc32 : UInt32) (answer : Bool)
  | activate (answer : Bool)
  | abort
  deriving DecidableEq, Repr

structure ProgressReport where
  target : Target
  status : OtaStatus
  receivedChunks : UInt16
  totalChunks : UInt16
  errorMessage : Option String
  deriving DecidableEq, Repr

inductive Event where
  | input (input : OtaInput)
  | call (call : WriterCall)
  | report (report : ProgressReport)
  deriving DecidableEq, Repr

/-- The answers an `IFlashWriter` will give, in the order it is asked. -/
structure FlashWriter where
  maxFirmwareSizes : Nat → UInt32
  answers : Nat → Bool

/-! ## The manager -/

structure OtaManager where
  target : Target
  /-- Whether a progress callback is bound. -/
  sendProgress : Bool
  status : OtaStatus
  expectedCrc32 : UInt32
  totalChunks : UInt16
  receivedChunks : UInt16
  writer : FlashWriter
  trace : List Event

namespace OtaManager

def new (target : Target) (sendProgress : Bool) (writer : FlashWriter) : OtaManager :=
  ⟨target, sendProgress, .idle, 0, 0, 0, writer, []⟩

def record (event : Event) (manager : OtaManager) : OtaManager :=
  { manager with trace := manager.trace ++ [event] }

def ask (call : Bool → WriterCall) (manager : OtaManager) : Bool × OtaManager :=
  let answer := manager.writer.answers 0
  let writer := { manager.writer with answers := fun later => manager.writer.answers (later + 1) }
  (answer, { manager with writer := writer }.record (.call (call answer)))

def maxFirmwareSize (manager : OtaManager) : UInt32 × OtaManager :=
  let answer := manager.writer.maxFirmwareSizes 0
  let writer := { manager.writer with
    maxFirmwareSizes := fun later => manager.writer.maxFirmwareSizes (later + 1) }
  (answer, { manager with writer := writer }.record (.call (.maxFirmwareSize answer)))

def sendReport (errorMessage : Option String) (manager : OtaManager) : OtaManager :=
  if manager.sendProgress then
    manager.record (.report ⟨manager.target, manager.status, manager.receivedChunks,
      manager.totalChunks, errorMessage⟩)
  else manager

def transitionTo (newStatus : OtaStatus) (errorMessage : Option String) (manager : OtaManager) :
    OtaManager :=
  { manager with status := newStatus }.sendReport errorMessage

def failIdle (errorMessage : String) (manager : OtaManager) : OtaManager :=
  { manager.transitionTo .error (some errorMessage) with status := .idle }

def abandon (errorMessage : String) (manager : OtaManager) : OtaManager :=
  (manager.record (.call .abort)).failIdle errorMessage

/-- The restart of `handleBegin` outside the idle state. -/
def restart (manager : OtaManager) : OtaManager :=
  { manager.record (.call .abort) with status := .idle, receivedChunks := 0, totalChunks := 0 }

/-! ## Handlers -/

def handleBegin (firmwareSize firmwareCrc32 : UInt32) (totalChunks : UInt16)
    (manager : OtaManager) : OtaManager :=
  let manager := if manager.status ≠ .idle then manager.restart else manager
  if manager.status ≠ .idle then
    manager.transitionTo .error (some "OtaBegin received while not idle")
  else
    let (maxSize, manager) := manager.maxFirmwareSize
    if firmwareSize = 0 ∨ firmwareSize > maxSize then
      manager.failIdle "Firmware too large for target"
    else
      let manager := { manager with
        expectedCrc32 := firmwareCrc32
        totalChunks := totalChunks
        receivedChunks := 0 }
      match (manager.transitionTo .preparing none).ask (.begin firmwareSize) with
      | (false, manager) => manager.abandon "Flash erase failed"
      | (true, manager) => manager.transitionTo .receiving none

def kProgressReportInterval : Nat := 50

def handleData (chunkIndex : UInt16) (data : Option Bytes) (manager : OtaManager) : OtaManager :=
  if manager.status ≠ .receiving then manager
  else if chunkIndex ≠ manager.receivedChunks then manager.abandon "Unexpected chunk index"
  else
    -- a null pointer is refused like a chunk of size zero
    let chunk := data.getD []
    if chunk.length = 0 then manager.abandon "Empty chunk data"
    else
      match manager.ask (.writeChunk chunkIndex chunk) with
      | (false, manager) => manager.abandon "Flash write failed"
      | (true, manager) =>
          let manager := { manager with receivedChunks := manager.receivedChunks + 1 }
          let isLastChunk := manager.receivedChunks = manager.totalChunks
          let isReportDue := manager.receivedChunks.toNat % kProgressReportInterval = 0
          if isLastChunk ∨ isReportDue then manager.sendReport none else manager

/-- The overload for a message refuses an empty chunk in every state. -/
def handleDataMessage (message : OtaData) (manager : OtaManager) : OtaManager :=
  if (message.data.getD []).length = 0 then manager.abandon "Empty chunk data"
  else manager.handleData message.chunkIndex message.data

def handleEnd (manager : OtaManager) : OtaManager :=
  if manager.status ≠ .receiving then manager
  else if manager.receivedChunks ≠ manager.totalChunks then
    manager.abandon "Chunk count mismatch"
  else
    match manager.ask .finish with
    | (false, manager) => manager.abandon "Flash finalization failed"
    | (true, manager) =>
        let manager := manager.transitionTo .verifying none
        match manager.ask (.verify manager.expectedCrc32) with
        | (false, manager) => manager.abandon "CRC32 verification failed"
        | (true, manager) =>
            let manager := manager.transitionTo .applying none
            let manager := manager.transitionTo .rebooting none
            match manager.ask .activate with
            | (false, manager) => manager.abandon "Slot activation failed"
            | (true, manager) => manager

def handleAbort (reason : Option String) (manager : OtaManager) : OtaManager :=
  if manager.status = .idle then manager
  else manager.abandon (reason.getD "Aborted by host")

/-! ## Runs -/

def dispatch (manager : OtaManager) : OtaInput → OtaManager
  | .beginMessage message =>
      manager.handleBegin message.firmwareSize message.firmwareCrc32 message.totalChunks
  | .beginValues firmwareSize firmwareCrc32 totalChunks =>
      manager.handleBegin firmwareSize firmwareCrc32 totalChunks
  | .dataMessage message => manager.handleDataMessage message
  | .dataValues chunkIndex data => manager.handleData chunkIndex data
  | .endMessage _ => manager.handleEnd
  | .endValues => manager.handleEnd
  | .abortMessage message => manager.handleAbort message.reason
  | .abortValues reason => manager.handleAbort reason

def handle (manager : OtaManager) (input : OtaInput) : OtaManager :=
  (manager.record (.input input)).dispatch input

def run (manager : OtaManager) (inputs : List OtaInput) : OtaManager :=
  inputs.foldl handle manager

end OtaManager

end Libcomm
