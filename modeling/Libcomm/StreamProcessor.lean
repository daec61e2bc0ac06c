import Libcomm.FrameTransport
import Libcomm.Library.WhileLoop

/-!
# The stream processor

`StreamProcessor` with its fixed array, its size counter and the callbacks it
invokes.  The processor also carries the history of a run: the callback
invocations so far and the bytes ever copied into the buffer.  A callback may
call `reset()` on the processor from any of its invocations; `Callbacks.Quiet`
says that none does.
-/

set_option autoImplicit false

namespace Libcomm

open WhileLoop

def kBufferCapacity : Nat := kHeaderSize + kMaxFrameSize + kCrcSize
def kMinimumFrameSize : Nat := kHeaderSize + kCrcSize

/-! ## The buffer -/

/-- `etl::array<std::uint8_t, kBufferCapacity>`. -/
structure FrameBuffer where
  bytes : Bytes
  length_eq : bytes.length = kBufferCapacity

namespace FrameBuffer

def zeros : FrameBuffer := ⟨List.replicate kBufferCapacity 0, List.length_replicate⟩

/-- `etl::copy` of the elements from `first` up to `last` to the front. -/
def moveDown (buffer : FrameBuffer) (first last : Nat) : FrameBuffer where
  bytes :=
    let moved := (buffer.bytes.take last).drop first
    moved ++ buffer.bytes.drop moved.length
  length_eq := by
    have full := buffer.length_eq
    simp only [List.length_append, List.length_drop, List.length_take]
    omega

/-- `etl::copy` of a chunk to an offset.  Elements past the end of the array,
which no call reaches while the size counter is in range, are left out. -/
def copyIn (buffer : FrameBuffer) (offset : Nat) (chunk : Bytes) : FrameBuffer where
  bytes := (store buffer.bytes offset chunk).take kBufferCapacity
  length_eq := by
    have full := buffer.length_eq
    simp only [store, List.length_take, List.length_append, List.length_drop]
    omega

end FrameBuffer

/-! ## Callbacks -/

inductive ErrorType where
  | bufferOverflow
  | invalidFrameSize
  | crcFailure
  | invalidHeader
  | syncRecoveryAttempt
  deriving DecidableEq, Repr

/-- The value the error callback receives. -/
def ErrorType.toInt : ErrorType → Int
  | .bufferOverflow => 0
  | .invalidFrameSize => 1
  | .crcFailure => 2
  | .invalidHeader => 3
  | .syncRecoveryAttempt => 4

inductive Invocation where
  | frame (payload : Bytes)
  | error (type : Int) (message : String)
  deriving DecidableEq, Repr

/-- Which callbacks are registered, and whether the latest of the invocations so
far calls `reset()`. -/
structure Callbacks where
  frameRegistered : Bool
  errorRegistered : Bool
  resets : List Invocation → Bool

def Callbacks.Quiet (callbacks : Callbacks) : Prop :=
  ∀ invocations, callbacks.resets invocations = false

/-! ## The processor -/

structure StreamProcessor where
  buffer : FrameBuffer
  size : Nat
  /-- Callback invocations so far. -/
  invocations : List Invocation
  /-- Every byte ever copied into the buffer. -/
  appended : Bytes

namespace StreamProcessor

def empty (buffer : FrameBuffer) : StreamProcessor := ⟨buffer, 0, [], []⟩

def getBufferUsage (processor : StreamProcessor) : Nat := processor.size

def reset (processor : StreamProcessor) : StreamProcessor := { processor with size := 0 }

def invoke (callbacks : Callbacks) (invocation : Invocation) (processor : StreamProcessor) :
    StreamProcessor :=
  let invocations := processor.invocations ++ [invocation]
  let processor := { processor with invocations := invocations }
  if callbacks.resets invocations then processor.reset else processor

def reportError (callbacks : Callbacks) (type : ErrorType) (message : String)
    (processor : StreamProcessor) : StreamProcessor :=
  if callbacks.errorRegistered then processor.invoke callbacks (.error type.toInt message)
  else processor

def trySync (callbacks : Callbacks) (processor : StreamProcessor) : Bool × StreamProcessor :=
  let processor :=
    processor.reportError callbacks .syncRecoveryAttempt "Searching for frame header"
  let found := (List.range' 1 (processor.size - 1)).find? fun searchPos =>
    processor.buffer.bytes.getD searchPos 0 == kProtocolVersion
  match found with
  | some searchPos =>
      (true, { processor with
        buffer := processor.buffer.moveDown searchPos processor.size
        size := processor.size - searchPos })
  | none => (false, processor)

def dropFrame (sizeType : SizeType) (expected : Nat) (processor : StreamProcessor) :
    StreamProcessor :=
  let remainingBytes := sizeType.sub processor.size expected
  { processor with
    buffer :=
      if remainingBytes > 0 then processor.buffer.moveDown expected processor.size
      else processor.buffer
    size := remainingBytes }

def dataHandler (callbacks : Callbacks) : DataHandler StreamProcessor :=
  fun payload processor => (true, processor.invoke callbacks (.frame payload))

/-- One pass of the loop of `extractFrames`, on the processor and the flag
`extractedAny`. -/
def extractPass (sizeType : SizeType) (callbacks : Callbacks) :
    StreamProcessor × Bool → Pass (StreamProcessor × Bool)
  | (processor, extractedAny) =>
      if processor.size < kHeaderSize then .exit (processor, extractedAny)
      else
        let payloadSizeBytes := loadUInt32 processor.buffer.bytes 4
        let expected := expectedTotalSizeBytes sizeType payloadSizeBytes
        if expected > kBufferCapacity then
          let processor := processor.reportError callbacks .invalidFrameSize
            "Frame size exceeds buffer capacity"
          match processor.trySync callbacks with
          | (true, processor) => .again (processor, extractedAny)
          | (false, processor) => .exit ({ processor with size := 0 }, extractedAny)
        else if processor.size < kMinimumFrameSize then .exit (processor, extractedAny)
        else if processor.size < expected then .exit (processor, extractedAny)
        else
          match handleIncoming sizeType (some processor.buffer.bytes) expected
            (some (dataHandler callbacks)) processor with
          | (true, processor) => .again (processor.dropFrame sizeType expected, true)
          | (false, processor) =>
              let processor :=
                processor.reportError callbacks .crcFailure "Frame validation failed"
              match processor.trySync callbacks with
              | (true, processor) => .again (processor, extractedAny)
              | (false, processor) => .again (processor.dropFrame sizeType expected, extractedAny)

/-- `extractFrames`; `none` when the loop does not end.  While the size counter
is in range no pass enlarges it, so one unit of fuel more than the size decides. -/
def extractFrames (sizeType : SizeType) (callbacks : Callbacks) (processor : StreamProcessor) :
    Option (StreamProcessor × Bool) :=
  WhileLoop.run (extractPass sizeType callbacks) (processor.size + 1) (processor, false)

def appendAndExtract (sizeType : SizeType) (callbacks : Callbacks) (chunk : Bytes)
    (processor : StreamProcessor) : Option StreamProcessor :=
  let processor := { processor with
    buffer := processor.buffer.copyIn processor.size chunk
    size := sizeType.add processor.size chunk.length
    appended := processor.appended ++ chunk }
  (processor.extractFrames sizeType callbacks).map Prod.fst

/-- The recovery of `feed` when a chunk does not fit. -/
def recoverSpace (callbacks : Callbacks) (processor : StreamProcessor) : StreamProcessor :=
  let processor :=
    processor.reportError callbacks .bufferOverflow "Insufficient buffer space"
  match processor.trySync callbacks with
  | (true, processor) => processor
  | (false, processor) => { processor with size := 0 }

def feed (sizeType : SizeType) (callbacks : Callbacks) (data : Option Bytes)
    (processor : StreamProcessor) : Option StreamProcessor :=
  match data with
  | none => some processor
  | some chunk =>
      if chunk.length = 0 then some processor
      else if ¬ callbacks.frameRegistered then
        some (processor.reportError callbacks .invalidHeader "Frame callback not registered")
      else
        let spaceAvailable := sizeType.sub kBufferCapacity processor.size
        if chunk.length > spaceAvailable then
          let processor := processor.recoverSpace callbacks
          let spaceAvailable := sizeType.sub kBufferCapacity processor.size
          if chunk.length > spaceAvailable then some processor
          else processor.appendAndExtract sizeType callbacks chunk
        else processor.appendAndExtract sizeType callbacks chunk

end StreamProcessor

/-! ## Runs -/

inductive StreamCall where
  | feed (data : Option Bytes)
  | reset
  deriving DecidableEq, Repr

def StreamProcessor.call (sizeType : SizeType) (callbacks : Callbacks)
    (processor : StreamProcessor) : StreamCall → Option StreamProcessor
  | .feed data => processor.feed sizeType callbacks data
  | .reset => some processor.reset

def StreamProcessor.run (sizeType : SizeType) (callbacks : Callbacks)
    (processor : StreamProcessor) (calls : List StreamCall) : Option StreamProcessor :=
  calls.foldlM (StreamProcessor.call sizeType callbacks) processor

end Libcomm
