import Libcomm.StreamDelivery

/-!
# The processor in steps

`feed` and `extractFrames` again, as a machine that takes one step between any
two callback invocations and between the assignments to the size counter.  Its
states are the ones in which a callback, or a reader of the source, can find the
processor.  `run_leads` says that the functions of the model pass through them.
-/

set_option autoImplicit false

namespace Libcomm

open WhileLoop

/-! ## Between two steps -/

/-- Where the processor is inside a call of `feed`.  After a frame was handed to
`HandleIncoming` its announced size is still to be used. -/
inductive StreamPoint where
  | waiting
  | overflowReported (chunk : Bytes)
  | overflowSearching (chunk : Bytes)
  | spaceRecovered (chunk : Bytes)
  | looping
  | oversizeReported
  | oversizeSearching
  | delivered (expected : Nat)
  | crcReported (expected : Nat)
  | crcSearching (expected : Nat)
  | discarding (expected : Nat)
  deriving DecidableEq, Repr

def StreamPoint.expected : StreamPoint → Option Nat
  | .delivered expected => some expected
  | .crcReported expected => some expected
  | .crcSearching expected => some expected
  | .discarding expected => some expected
  | _ => none

structure StreamState where
  point : StreamPoint
  processor : StreamProcessor
  /-- The calls that are still to come. -/
  calls : List StreamCall

namespace StreamProcessor

def searchVersion (processor : StreamProcessor) : Bool × StreamProcessor :=
  let found := (List.range' 1 (processor.size - 1)).find? fun searchPos =>
    processor.buffer.bytes.getD searchPos 0 == kProtocolVersion
  match found with
  | some searchPos =>
      (true, { processor with
        buffer := processor.buffer.moveDown searchPos processor.size
        size := processor.size - searchPos })
  | none => (false, processor)

def reportSync (callbacks : Callbacks) (processor : StreamProcessor) : StreamProcessor :=
  processor.reportError callbacks .syncRecoveryAttempt "Searching for frame header"

theorem trySync_eq (callbacks : Callbacks) (processor : StreamProcessor) :
    processor.trySync callbacks = (processor.reportSync callbacks).searchVersion := rfl

def append (sizeType : SizeType) (chunk : Bytes) (processor : StreamProcessor) :
    StreamProcessor :=
  { processor with
    buffer := processor.buffer.copyIn processor.size chunk
    size := sizeType.add processor.size chunk.length
    appended := processor.appended ++ chunk }

theorem appendAndExtract_append (sizeType : SizeType) (callbacks : Callbacks) (chunk : Bytes)
    (processor : StreamProcessor) :
    processor.appendAndExtract sizeType callbacks chunk =
      ((processor.append sizeType chunk).extractFrames sizeType callbacks).map Prod.fst := rfl

end StreamProcessor

namespace StreamState

open StreamProcessor

/-- From the head of the loop of `extractFrames` to the next callback. -/
def loopStep (sizeType : SizeType) (callbacks : Callbacks) (processor : StreamProcessor) :
    StreamPoint × StreamProcessor :=
  if processor.size < kHeaderSize then (.waiting, processor)
  else
    let expected := expectedTotalSizeBytes sizeType (loadUInt32 processor.buffer.bytes 4)
    if expected > kBufferCapacity then
      (.oversizeReported, processor.reportError callbacks .invalidFrameSize
        "Frame size exceeds buffer capacity")
    else if processor.size < kMinimumFrameSize then (.waiting, processor)
    else if processor.size < expected then (.waiting, processor)
    else
      match handleIncoming sizeType (some processor.buffer.bytes) expected
        (some (dataHandler callbacks)) processor with
      | (true, processor) => (.delivered expected, processor)
      | (false, processor) => (.crcReported expected,
          processor.reportError callbacks .crcFailure "Frame validation failed")

/-- From the entry of a call to its return or to the next callback. -/
def enter (sizeType : SizeType) (callbacks : Callbacks) (processor : StreamProcessor) :
    StreamCall → StreamPoint × StreamProcessor
  | .reset => (.waiting, processor.reset)
  | .feed none => (.waiting, processor)
  | .feed (some chunk) =>
      if chunk.length = 0 then (.waiting, processor)
      else if ¬ callbacks.frameRegistered then
        (.waiting, processor.reportError callbacks .invalidHeader "Frame callback not registered")
      else if chunk.length > sizeType.sub kBufferCapacity processor.size then
        (.overflowReported chunk,
          processor.reportError callbacks .bufferOverflow "Insufficient buffer space")
      else (.looping, processor.append sizeType chunk)

def resume (sizeType : SizeType) (callbacks : Callbacks) (processor : StreamProcessor) :
    StreamPoint → StreamPoint × StreamProcessor
  | .waiting => (.waiting, processor)
  | .overflowReported chunk => (.overflowSearching chunk, processor.reportSync callbacks)
  | .overflowSearching chunk =>
      match processor.searchVersion with
      | (true, processor) => (.spaceRecovered chunk, processor)
      | (false, processor) => (.spaceRecovered chunk, { processor with size := 0 })
  | .spaceRecovered chunk =>
      if chunk.length > sizeType.sub kBufferCapacity processor.size then (.waiting, processor)
      else (.looping, processor.append sizeType chunk)
  | .looping => loopStep sizeType callbacks processor
  | .oversizeReported => (.oversizeSearching, processor.reportSync callbacks)
  | .oversizeSearching =>
      match processor.searchVersion with
      | (true, processor) => (.looping, processor)
      | (false, processor) => (.waiting, { processor with size := 0 })
  | .delivered expected => (.looping, processor.dropFrame sizeType expected)
  | .crcReported expected => (.crcSearching expected, processor.reportSync callbacks)
  | .crcSearching expected =>
      match processor.searchVersion with
      | (true, processor) => (.looping, processor)
      | (false, processor) => (.discarding expected, processor)
  | .discarding expected => (.looping, processor.dropFrame sizeType expected)

def step (sizeType : SizeType) (callbacks : Callbacks) : StreamState → Pass StreamState
  | ⟨.waiting, processor, []⟩ => .exit ⟨.waiting, processor, []⟩
  | ⟨.waiting, processor, call :: calls⟩ =>
      let (point, processor) := enter sizeType callbacks processor call
      .again ⟨point, processor, calls⟩
  | ⟨point, processor, calls⟩ =>
      let (point, processor) := resume sizeType callbacks processor point
      .again ⟨point, processor, calls⟩

/-! ### The functions of the model pass through these states -/

section Connection
variable {sizeType : SizeType} {callbacks : Callbacks}

abbrev Leads (sizeType : SizeType) (callbacks : Callbacks) : StreamState → StreamState → Prop :=
  Reaches (step sizeType callbacks)

theorem leads_resume {point : StreamPoint} (inside : point ≠ .waiting)
    (processor : StreamProcessor) (calls : List StreamCall) :
    Leads sizeType callbacks ⟨point, processor, calls⟩
      ⟨(resume sizeType callbacks processor point).1,
        (resume sizeType callbacks processor point).2, calls⟩ := by
  refine .single ?_
  cases point with
  | waiting => exact absurd rfl inside
  | _ => rfl

theorem leads_enter (processor : StreamProcessor) (call : StreamCall) (calls : List StreamCall) :
    Leads sizeType callbacks ⟨.waiting, processor, call :: calls⟩
      ⟨(enter sizeType callbacks processor call).1,
        (enter sizeType callbacks processor call).2, calls⟩ :=
  .single rfl

theorem oversize_leads (processor : StreamProcessor) (calls : List StreamCall) :
    Leads sizeType callbacks ⟨.oversizeReported, processor, calls⟩
      (match processor.trySync callbacks with
      | (true, found) => ⟨.looping, found, calls⟩
      | (false, kept) => ⟨.waiting, { kept with size := 0 }, calls⟩) := by
  have reported := @leads_resume sizeType callbacks .oversizeReported (by simp) processor calls
  have searched := @leads_resume sizeType callbacks .oversizeSearching (by simp)
    (processor.reportSync callbacks) calls
  rw [trySync_eq]
  simp only [resume] at reported searched
  generalize (processor.reportSync callbacks).searchVersion = outcome at searched ⊢
  rcases outcome with ⟨_ | _, after⟩ <;> exact reported.trans searched

theorem crc_leads (expected : Nat) (processor : StreamProcessor) (calls : List StreamCall) :
    Leads sizeType callbacks ⟨.crcReported expected, processor, calls⟩
      (match processor.trySync callbacks with
      | (true, found) => ⟨.looping, found, calls⟩
      | (false, kept) => ⟨.looping, kept.dropFrame sizeType expected, calls⟩) := by
  have reported := @leads_resume sizeType callbacks (.crcReported expected) (by simp) processor
    calls
  have searched := @leads_resume sizeType callbacks (.crcSearching expected) (by simp)
    (processor.reportSync callbacks) calls
  rw [trySync_eq]
  simp only [resume] at reported searched
  generalize (processor.reportSync callbacks).searchVersion = outcome at searched ⊢
  rcases outcome with ⟨_ | _, after⟩
  · exact (reported.trans searched).trans (leads_resume (by simp) after calls)
  · exact reported.trans searched

/-- One pass of the loop, or its last one. -/
theorem extractPass_leads (processor : StreamProcessor) (extractedAny : Bool)
    (calls : List StreamCall) :
    Leads sizeType callbacks ⟨.looping, processor, calls⟩
      (match extractPass sizeType callbacks (processor, extractedAny) with
      | .exit final => ⟨.waiting, final.1, calls⟩
      | .again next => ⟨.looping, next.1, calls⟩) := by
  have looping := @leads_resume sizeType callbacks .looping (by simp) processor calls
  simp only [resume, loopStep] at looping
  simp only [extractPass]
  set expected := expectedTotalSizeBytes sizeType (loadUInt32 processor.buffer.bytes 4)
  by_cases header : processor.size < kHeaderSize
  · simpa only [if_pos header] using looping
  simp only [if_neg header] at looping ⊢
  by_cases exceeds : expected > kBufferCapacity
  · simp only [if_pos exceeds] at looping ⊢
    have searched := looping.trans (oversize_leads _ calls)
    generalize trySync callbacks _ = outcome at searched ⊢
    rcases outcome with ⟨_ | _, after⟩ <;> exact searched
  simp only [if_neg exceeds] at looping ⊢
  by_cases minimum : processor.size < kMinimumFrameSize
  · simpa only [if_pos minimum] using looping
  simp only [if_neg minimum] at looping ⊢
  by_cases incomplete : processor.size < expected
  · simpa only [if_pos incomplete] using looping
  simp only [if_neg incomplete] at looping ⊢
  generalize handleIncoming sizeType _ _ _ processor = handled at looping ⊢
  rcases handled with ⟨_ | _, handled⟩
  · have searched := looping.trans (crc_leads expected _ calls)
    dsimp only
    generalize trySync callbacks _ = outcome at searched ⊢
    rcases outcome with ⟨_ | _, after⟩ <;> exact searched
  · exact looping.trans (leads_resume (by simp) handled calls)

theorem extractFrames_leads {processor after : StreamProcessor}
    (result : (processor.extractFrames sizeType callbacks).map Prod.fst = some after)
    (calls : List StreamCall) :
    Leads sizeType callbacks ⟨.looping, processor, calls⟩ ⟨.waiting, after, calls⟩ := by
  obtain ⟨final, finished, rfl⟩ := Option.map_eq_some_iff.mp result
  refine run_invariant
    (fun current : StreamProcessor × Bool =>
      Leads sizeType callbacks ⟨.looping, processor, calls⟩ ⟨.looping, current.1, calls⟩)
    (fun last : StreamProcessor × Bool => Leads sizeType callbacks ⟨.looping, processor, calls⟩
      ⟨.waiting, last.1, calls⟩) ?_ ?_ ?_ finished
  · intro current next reached continues
    have pass := @extractPass_leads sizeType callbacks current.1 current.2 calls
    rw [continues] at pass
    exact reached.trans pass
  · intro current last reached leaves
    have pass := @extractPass_leads sizeType callbacks current.1 current.2 calls
    rw [leaves] at pass
    exact reached.trans pass
  · exact .refl

theorem append_leads {processor after : StreamProcessor} {chunk : Bytes}
    (result : processor.appendAndExtract sizeType callbacks chunk = some after)
    (calls : List StreamCall) :
    Leads sizeType callbacks ⟨.looping, processor.append sizeType chunk, calls⟩
      ⟨.waiting, after, calls⟩ := by
  rw [appendAndExtract_append] at result
  exact extractFrames_leads result calls

theorem recoverSpace_leads (processor : StreamProcessor) (chunk : Bytes)
    (calls : List StreamCall) :
    Leads sizeType callbacks
      ⟨.overflowReported chunk, processor.reportError callbacks .bufferOverflow
        "Insufficient buffer space", calls⟩
      ⟨.spaceRecovered chunk, processor.recoverSpace callbacks, calls⟩ := by
  set reported := processor.reportError callbacks .bufferOverflow "Insufficient buffer space"
    with reportedDef
  have searching := @leads_resume sizeType callbacks (.overflowReported chunk) (by simp) reported
    calls
  have searched := @leads_resume sizeType callbacks (.overflowSearching chunk) (by simp)
    (reported.reportSync callbacks) calls
  simp only [recoverSpace, ← reportedDef, trySync_eq]
  simp only [resume] at searching searched
  generalize (reported.reportSync callbacks).searchVersion = outcome at searched ⊢
  rcases outcome with ⟨_ | _, after⟩ <;> exact searching.trans searched

theorem call_leads {processor after : StreamProcessor} {call : StreamCall}
    (called : processor.call sizeType callbacks call = some after) (calls : List StreamCall) :
    Leads sizeType callbacks ⟨.waiting, processor, call :: calls⟩ ⟨.waiting, after, calls⟩ := by
  have entered := @leads_enter sizeType callbacks processor call calls
  match call, called with
  | .reset, called =>
      cases called
      exact entered
  | .feed none, called =>
      cases called
      exact entered
  | .feed (some chunk), called =>
      simp only [StreamProcessor.call, feed] at called
      simp only [enter] at entered
      by_cases empty : chunk.length = 0
      · simp only [if_pos empty] at called entered
        cases called
        exact entered
      simp only [if_neg empty] at called entered
      by_cases missing : ¬ callbacks.frameRegistered
      · simp only [if_pos missing] at called entered
        cases called
        exact entered
      simp only [if_neg missing] at called entered
      by_cases overflow : chunk.length > sizeType.sub kBufferCapacity processor.size
      · simp only [if_pos overflow] at called entered
        have recovered := entered.trans (recoverSpace_leads processor chunk calls)
        have checked := @leads_resume sizeType callbacks (.spaceRecovered chunk) (by simp)
          (processor.recoverSpace callbacks) calls
        simp only [resume] at checked
        by_cases still : chunk.length >
            sizeType.sub kBufferCapacity (processor.recoverSpace callbacks).size
        · simp only [if_pos still] at called checked
          cases called
          exact recovered.trans checked
        · simp only [if_neg still] at called checked
          exact (recovered.trans checked).trans (append_leads called calls)
      · simp only [if_neg overflow] at called entered
        exact entered.trans (append_leads called calls)

/-- **The machine is the processor**: it passes from any state between two calls
to the state that the functions of the model compute. -/
theorem run_leads {processor after : StreamProcessor} (front back : List StreamCall)
    (ran : processor.run sizeType callbacks front = some after) :
    Leads sizeType callbacks ⟨.waiting, processor, front ++ back⟩ ⟨.waiting, after, back⟩ := by
  induction front generalizing processor with
  | nil =>
      cases ran
      exact .refl
  | cons call rest ih =>
      rw [run_cons] at ran
      obtain ⟨middle, called, ran⟩ := Option.bind_eq_some_iff.mp ran
      exact (call_leads called (rest ++ back)).trans (ih ran)

end Connection

end StreamState

end Libcomm
