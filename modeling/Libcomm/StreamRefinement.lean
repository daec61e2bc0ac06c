import Libcomm.FrameFormat
import Libcomm.Library.FrameScan
import Libcomm.StreamProcessor
import Mathlib.Tactic.Set

/-!
# What one pass of the extraction loop does to the buffered bytes

The processor is read as the list of its buffered bytes, `live`.  While no
callback resets it, a pass of the loop leaves the bytes alone, delivers a valid
frame at their front, or drops bytes at which no frame can begin.
`extractPass_outcome` says so once, with everything else a pass changes; the
later modules cite it and do not unfold the loop.
-/

set_option autoImplicit false

namespace Libcomm

open FrameScan WhileLoop

/-! ## The framing of the protocol -/

def recogniseFrame (bytes : Bytes) : Option (Nat × Bytes) :=
  if ValidFrame bytes then some (frameSize bytes, framePayload bytes) else none

theorem recogniseFrame_eq_some_iff (bytes payload : Bytes) (length : Nat) :
    recogniseFrame bytes = some (length, payload) ↔
      ValidFrame bytes ∧ frameSize bytes = length ∧ framePayload bytes = payload := by
  unfold recogniseFrame
  by_cases valid : ValidFrame bytes <;> simp [valid]

def frameFraming : Framing UInt8 Bytes where
  recognise := recogniseFrame
  length_pos := by
    intro input length payload recognised
    obtain ⟨_, rfl, _⟩ := (recogniseFrame_eq_some_iff _ _ _).mp recognised
    exact Nat.lt_of_lt_of_le (by decide) (frameSize_ge input)
  length_le := by
    intro input length payload recognised
    obtain ⟨valid, rfl, _⟩ := (recogniseFrame_eq_some_iff _ _ _).mp recognised
    exact valid.complete
  stable := by
    intro input found recognised rest
    obtain ⟨length, payload⟩ := found
    obtain ⟨valid, rfl, rfl⟩ := (recogniseFrame_eq_some_iff _ _ _).mp recognised
    have header : kHeaderSize ≤ input.length :=
      Nat.le_trans (Nat.le_trans (by decide) (frameSize_ge input)) valid.complete
    exact (recogniseFrame_eq_some_iff _ _ _).mpr
      ⟨(validFrame_append input rest valid.complete).mpr valid,
        frameSize_append input rest header, framePayload_append input rest valid.complete⟩
  contained := by
    intro input length payload recognised
    obtain ⟨valid, rfl, rfl⟩ := (recogniseFrame_eq_some_iff _ _ _).mp recognised
    have header : kHeaderSize ≤ frameSize input :=
      Nat.le_trans (by decide) (frameSize_ge input)
    exact (recogniseFrame_eq_some_iff _ _ _).mpr
      ⟨(validFrame_take input (Nat.le_refl _) valid.complete).mpr valid,
        frameSize_take input header, framePayload_take input (Nat.le_refl _)⟩

/-! ### Where no frame begins -/

theorem dead_of_forall (bytes : Bytes) (invalid : ∀ rest, ¬ ValidFrame (bytes ++ rest)) :
    Dead frameFraming bytes :=
  fun rest => if_neg (invalid rest)

theorem dead_of_version (bytes : Bytes) (nonEmpty : bytes ≠ [])
    (version : bytes.getD 0 0 ≠ kProtocolVersion) : Dead frameFraming bytes := by
  apply dead_of_forall
  intro rest valid
  apply version
  rw [← valid.version]
  cases bytes with
  | nil => exact absurd rfl nonEmpty
  | cons byte tail => rfl

theorem dead_of_oversize (bytes : Bytes) (header : kHeaderSize ≤ bytes.length)
    (oversize : kMaxFrameSize < announcedSize bytes) : Dead frameFraming bytes := by
  apply dead_of_forall
  intro rest valid
  have small := valid.size_le
  rw [announcedSize_append bytes rest header] at small
  omega

theorem dead_of_invalid (bytes : Bytes) (whole : frameSize bytes ≤ bytes.length)
    (invalid : ¬ ValidFrame bytes) : Dead frameFraming bytes :=
  dead_of_forall bytes fun rest valid => invalid ((validFrame_append bytes rest whole).mp valid)

/-- No version byte behind the first byte, up to a position. -/
def NoVersionBefore (bytes : Bytes) (count : Nat) : Prop :=
  ∀ position, 1 ≤ position → position < count → bytes.getD position 0 ≠ kProtocolVersion

/-- Up to the next version byte there is no frame behind a dead front. -/
theorem skippable_of_no_version (bytes : Bytes) (count : Nat) (inside : count ≤ bytes.length)
    (front : Dead frameFraming bytes) (versions : NoVersionBefore bytes count) :
    Skippable frameFraming bytes count := by
  intro offset bound
  cases offset with
  | zero => exact front
  | succ offset =>
      apply dead_of_version
      · intro empty
        have := List.drop_eq_nil_iff.mp empty
        omega
      · have version := versions (offset + 1) (by omega) bound
        simpa [List.getD_eq_getElem?_getD, List.getElem?_drop] using version

/-! ## The buffered bytes -/

namespace StreamProcessor

def live (processor : StreamProcessor) : Bytes := processor.buffer.bytes.take processor.size

def InRange (processor : StreamProcessor) : Prop := processor.size ≤ kBufferCapacity

theorem live_length {processor : StreamProcessor} (inRange : processor.InRange) :
    processor.live.length = processor.size := by
  rw [live, List.length_take, processor.buffer.length_eq]
  exact Nat.min_eq_left inRange

structure Moved (before : StreamProcessor) (events : List Invocation) (later : Bytes)
    (after : StreamProcessor) : Prop where
  live_eq : after.live = later
  size_eq : after.size = later.length
  invocations_eq : after.invocations = before.invocations ++ events
  appended_eq : after.appended = before.appended

end StreamProcessor

def Callbacks.reports (callbacks : Callbacks) (errors : List (ErrorType × String)) :
    List Invocation :=
  if callbacks.errorRegistered then errors.map fun error => .error error.1.toInt error.2 else []

namespace StreamProcessor

theorem reportError_quiet {callbacks : Callbacks} (quiet : callbacks.Quiet) (type : ErrorType)
    (message : String) (processor : StreamProcessor) :
    processor.reportError callbacks type message =
      { processor with
        invocations := processor.invocations ++ callbacks.reports [(type, message)] } := by
  unfold reportError Callbacks.reports
  split
  · simp [invoke, quiet _]
  · simp

theorem reports_append (callbacks : Callbacks) (front back : List (ErrorType × String)) :
    callbacks.reports front ++ callbacks.reports back = callbacks.reports (front ++ back) := by
  unfold Callbacks.reports
  split <;> simp

def reported (callbacks : Callbacks) (errors : List (ErrorType × String))
    (processor : StreamProcessor) : StreamProcessor :=
  { processor with invocations := processor.invocations ++ callbacks.reports errors }

theorem live_moveDown (processor : StreamProcessor) (count : Nat) (inRange : processor.InRange) :
    ((processor.buffer.moveDown count processor.size).bytes.take (processor.size - count)) =
      processor.live.drop count := by
  have length := live_length inRange
  rw [live] at length
  exact List.take_left' (by rw [List.length_drop, length])

theorem live_copyIn (processor : StreamProcessor) (chunk : Bytes)
    (fits : processor.size + chunk.length ≤ kBufferCapacity) :
    (processor.buffer.copyIn processor.size chunk).bytes.take (processor.size + chunk.length) =
      processor.live ++ chunk := by
  have inRange : processor.InRange := Nat.le_trans (Nat.le_add_right _ _) fits
  have length : (processor.live ++ chunk).length = processor.size + chunk.length := by
    rw [List.length_append, live_length inRange]
  rw [FrameBuffer.copyIn, List.take_take, Nat.min_eq_left fits, store]
  exact List.take_left' length

theorem live_getD (processor : StreamProcessor) {position : Nat}
    (inside : position < processor.size) :
    processor.live.getD position 0 = processor.buffer.bytes.getD position 0 :=
  getD_take_of_lt _ inside

def syncReport : List (ErrorType × String) :=
  [(.syncRecoveryAttempt, "Searching for frame header")]

theorem trySync_quiet {callbacks : Callbacks} (quiet : callbacks.Quiet)
    (processor : StreamProcessor) (inRange : processor.InRange) :
    (∃ count after, 1 ≤ count ∧ count < processor.size ∧
      processor.live.getD count 0 = kProtocolVersion ∧
      NoVersionBefore processor.live count ∧
      processor.trySync callbacks = (true, after) ∧
      processor.Moved (callbacks.reports syncReport) (processor.live.drop count) after) ∨
    (NoVersionBefore processor.live processor.size ∧
      processor.trySync callbacks = (false, processor.reported callbacks syncReport)) := by
  have length := live_length inRange
  simp only [trySync, reportError_quiet quiet]
  cases search : (List.range' 1 (processor.size - 1)).find? fun searchPos =>
      processor.buffer.bytes.getD searchPos 0 == kProtocolVersion with
  | some count =>
      left
      obtain ⟨version, member, before⟩ := List.find?_range'_eq_some.mp search
      rw [List.mem_range'_1] at member
      refine ⟨count, _, member.1, by omega, ?_, ?_, rfl, ⟨?_, ?_, rfl, rfl⟩⟩
      · rw [live_getD processor (by omega)]
        simpa using version
      · intro position first inside
        rw [live_getD processor (by omega)]
        simpa using before position first inside
      · exact live_moveDown processor count inRange
      · rw [List.length_drop, length]
  | none =>
      right
      refine ⟨?_, rfl⟩
      intro position first inside
      rw [live_getD processor inside]
      simpa using List.find?_range'_eq_none.mp search position first (by omega)

theorem dropFrame_moved (sizeType : SizeType) (expected : Nat) {processor : StreamProcessor}
    (inRange : processor.InRange) (inside : expected ≤ processor.size) :
    processor.Moved [] (processor.live.drop expected) (processor.dropFrame sizeType expected) := by
  have length := live_length inRange
  have remaining : sizeType.sub processor.size expected = processor.size - expected := by
    apply sizeType.sub_of_le inside
    exact Nat.lt_of_le_of_lt inRange (by decide)
  refine ⟨?_, ?_, (List.append_nil _).symm, rfl⟩
  · simp only [live, dropFrame, remaining]
    split
    · exact live_moveDown processor expected inRange
    · rw [show processor.size - expected = 0 by omega, List.take_zero]
      exact (List.drop_eq_nil_of_le (by rw [← live, length]; omega)).symm
  · rw [List.length_drop, length]
    exact remaining

/-! ## One pass -/

def announcedTotal (sizeType : SizeType) (bytes : Bytes) : Nat :=
  expectedTotalSizeBytes sizeType (loadUInt32 bytes 4)

/-- The front of the buffer announces a frame that is still to be completed. -/
def Incomplete (sizeType : SizeType) (bytes : Bytes) : Prop :=
  bytes.length < kHeaderSize ∨
    (announcedTotal sizeType bytes ≤ kBufferCapacity ∧
      (bytes.length < kMinimumFrameSize ∨ bytes.length < announcedTotal sizeType bytes))

/-- The front of the buffer announces more than the buffer can hold. -/
def Oversize (sizeType : SizeType) (bytes : Bytes) : Prop :=
  kHeaderSize ≤ bytes.length ∧ kBufferCapacity < announcedTotal sizeType bytes

instance (sizeType : SizeType) (bytes : Bytes) : Decidable (Incomplete sizeType bytes) :=
  inferInstanceAs (Decidable (_ ∨ _))

instance (sizeType : SizeType) (bytes : Bytes) : Decidable (Oversize sizeType bytes) :=
  inferInstanceAs (Decidable (_ ∧ _))

/-- As many bytes as announced are there, but they are not a frame. -/
structure Rejected (sizeType : SizeType) (bytes : Bytes) : Prop where
  minimum : kMinimumFrameSize ≤ bytes.length
  inside : announcedTotal sizeType bytes ≤ bytes.length
  small : announcedTotal sizeType bytes ≤ kBufferCapacity
  invalid : ¬ (ValidFrame bytes ∧ frameSize bytes = announcedTotal sizeType bytes)

def oversizeReport : List (ErrorType × String) :=
  (.invalidFrameSize, "Frame size exceeds buffer capacity") :: syncReport

def crcReport : List (ErrorType × String) :=
  (.crcFailure, "Frame validation failed") :: syncReport

inductive PassOutcome (sizeType : SizeType) (callbacks : Callbacks) (before : StreamProcessor)
    (extractedAny : Bool) : Pass (StreamProcessor × Bool) → Prop where
  | waits (incomplete : Incomplete sizeType before.live) :
      PassOutcome sizeType callbacks before extractedAny (.exit (before, extractedAny))
  | resynced {after : StreamProcessor} {errors : List (ErrorType × String)} {count : Nat}
      (reason : (errors = oversizeReport ∧ Oversize sizeType before.live) ∨
        (errors = crcReport ∧ Rejected sizeType before.live))
      (positive : 1 ≤ count) (inside : count < before.live.length)
      (version : before.live.getD count 0 = kProtocolVersion)
      (noVersion : NoVersionBefore before.live count)
      (skippable : Skippable frameFraming before.live count)
      (moved : before.Moved (callbacks.reports errors) (before.live.drop count) after) :
      PassOutcome sizeType callbacks before extractedAny (.again (after, extractedAny))
  | cleared {after : StreamProcessor} (oversize : Oversize sizeType before.live)
      (noVersion : NoVersionBefore before.live before.live.length)
      (skippable : Skippable frameFraming before.live before.live.length)
      (moved : before.Moved (callbacks.reports oversizeReport) [] after) :
      PassOutcome sizeType callbacks before extractedAny (.exit (after, extractedAny))
  | delivered {after : StreamProcessor} (valid : ValidFrame before.live)
      (moved : before.Moved [.frame (framePayload before.live)]
        (before.live.drop (frameSize before.live)) after) :
      PassOutcome sizeType callbacks before extractedAny (.again (after, true))
  | discarded {after : StreamProcessor} (rejected : Rejected sizeType before.live)
      (noVersion : NoVersionBefore before.live before.live.length)
      (skippable : Skippable frameFraming before.live (announcedTotal sizeType before.live))
      (moved : before.Moved (callbacks.reports crcReport)
        (before.live.drop (announcedTotal sizeType before.live)) after) :
      PassOutcome sizeType callbacks before extractedAny (.again (after, extractedAny))

theorem Moved.of_reported {callbacks : Callbacks} {errors : List (ErrorType × String)}
    {processor after : StreamProcessor} {events : List Invocation} {later : Bytes}
    (moved : (processor.reported callbacks errors).Moved events later after) :
    processor.Moved (callbacks.reports errors ++ events) later after := by
  obtain ⟨live, size, invocations, appended⟩ := moved
  refine ⟨live, size, ?_, appended⟩
  rw [invocations, reported, List.append_assoc]

/-- The handler of `extractFrames` accepts, and only records the payload. -/
theorem dataHandler_quiet {callbacks : Callbacks} (quiet : callbacks.Quiet) (payload : Bytes)
    (processor : StreamProcessor) :
    dataHandler callbacks payload processor =
      (true, { processor with invocations := processor.invocations ++ [.frame payload] }) := by
  simp [dataHandler, invoke, quiet _]

/-- The buffered bytes decide what `HandleIncoming` makes of the array. -/
theorem handleIncoming_live (callbacks : Callbacks) (sizeType : SizeType)
    (processor : StreamProcessor) (inRange : processor.InRange) (expected : Nat)
    (inside : expected ≤ processor.size) :
    handleIncoming sizeType (some processor.buffer.bytes) expected
        (some (dataHandler callbacks)) processor =
      if ValidFrame processor.live ∧ frameSize processor.live = expected then
        dataHandler callbacks (framePayload processor.live) processor
      else (false, processor) := by
  have length := live_length inRange
  have capacity : processor.size ≤ processor.buffer.bytes.length := by
    rw [processor.buffer.length_eq]
    exact inRange
  have small : expected ≤ kHeaderSize + kMaxFrameSize + kCrcSize := Nat.le_trans inside inRange
  rw [handleIncoming_eq sizeType _ _ _ _ (by omega) small]
  by_cases whole : frameSize processor.buffer.bytes = expected
  · have header : kHeaderSize ≤ processor.size := by
      have := frameSize_ge processor.buffer.bytes
      omega
    have size : frameSize processor.live = frameSize processor.buffer.bytes :=
      frameSize_take _ header
    have valid : ValidFrame processor.live ↔ ValidFrame processor.buffer.bytes :=
      validFrame_take _ (by omega) capacity
    have payload : framePayload processor.live = framePayload processor.buffer.bytes :=
      framePayload_take _ (by omega)
    simp only [valid, size, payload]
  · have other : ¬ (ValidFrame processor.live ∧ frameSize processor.live = expected) := by
      rintro ⟨valid, size⟩
      have header : kHeaderSize ≤ processor.size := by
        have := frameSize_ge processor.live
        have := valid.complete
        omega
      exact whole ((frameSize_take _ header).symm.trans size)
    rw [if_neg other, if_neg fun accepted => whole accepted.2]

theorem trySync_reported {callbacks : Callbacks} (quiet : callbacks.Quiet)
    (processor : StreamProcessor) (inRange : processor.InRange) (type : ErrorType)
    (message : String) :
    (∃ count after, 1 ≤ count ∧ count < processor.size ∧
      processor.live.getD count 0 = kProtocolVersion ∧
      NoVersionBefore processor.live count ∧
      (processor.reportError callbacks type message).trySync callbacks = (true, after) ∧
      processor.Moved (callbacks.reports ((type, message) :: syncReport))
        (processor.live.drop count) after) ∨
    (NoVersionBefore processor.live processor.size ∧
      (processor.reportError callbacks type message).trySync callbacks =
        (false, processor.reported callbacks ((type, message) :: syncReport))) := by
  have both : callbacks.reports [(type, message)] ++ callbacks.reports syncReport =
      callbacks.reports ((type, message) :: syncReport) := reports_append _ _ _
  have report : processor.reportError callbacks type message =
      processor.reported callbacks [(type, message)] := reportError_quiet quiet _ _ _
  rw [report]
  rcases trySync_quiet quiet (processor.reported callbacks [(type, message)]) inRange with
    ⟨count, after, positive, inside, version, noVersion, result, moved⟩ | ⟨noVersion, result⟩
  · left
    refine ⟨count, after, positive, inside, version, noVersion, result, ?_⟩
    rw [← both]
    exact moved.of_reported
  · right
    refine ⟨noVersion, ?_⟩
    rw [result, reported, reported, reported, List.append_assoc, both]

theorem dead_of_oversized (sizeType : SizeType) (bytes : Bytes)
    (oversize : Oversize sizeType bytes) : Dead frameFraming bytes := by
  obtain ⟨header, exceeds⟩ := oversize
  apply dead_of_oversize bytes header
  have bound := (loadUInt32 bytes 4).toNat_lt
  simp only [announcedTotal] at exceeds
  simp only [announcedSize]
  rcases expectedTotalSizeBytes_cases sizeType (loadUInt32 bytes 4) with exact | ⟨_, _, exact⟩ <;>
    rw [exact] at exceeds <;>
    simp only [kBufferCapacity, kHeaderSize, kMaxFrameSize, kCrcSize] at * <;>
    omega

theorem dead_of_rejected (sizeType : SizeType) (bytes : Bytes)
    (rejected : Rejected sizeType bytes) : Dead frameFraming bytes := by
  have inside := rejected.inside
  simp only [announcedTotal] at inside
  rcases expectedTotalSizeBytes_cases sizeType (loadUInt32 bytes 4) with exact | ⟨_, wraps, _⟩
  · have size : frameSize bytes = expectedTotalSizeBytes sizeType (loadUInt32 bytes 4) :=
      exact.symm
    exact dead_of_invalid bytes (by omega) fun valid => rejected.invalid ⟨valid, size⟩
  · apply dead_of_oversize bytes (Nat.le_trans (by decide) rejected.minimum)
    simp only [announcedSize, kMaxFrameSize, kHeaderSize, kCrcSize] at wraps ⊢
    omega

theorem complete_of_neither {sizeType : SizeType} {bytes : Bytes}
    (complete : ¬ Incomplete sizeType bytes) (fits : ¬ Oversize sizeType bytes) :
    kMinimumFrameSize ≤ bytes.length ∧ announcedTotal sizeType bytes ≤ bytes.length ∧
      announcedTotal sizeType bytes ≤ kBufferCapacity := by
  simp only [Incomplete, Oversize] at complete fits
  omega

/-- A pass decides by the buffered bytes alone, and looks at no other. -/
theorem extractPass_live {callbacks : Callbacks} (quiet : callbacks.Quiet)
    (sizeType : SizeType) (processor : StreamProcessor) (inRange : processor.InRange)
    (extractedAny : Bool) :
    extractPass sizeType callbacks (processor, extractedAny) =
      let expected := announcedTotal sizeType processor.live
      if Incomplete sizeType processor.live then .exit (processor, extractedAny)
      else if Oversize sizeType processor.live then
        match (processor.reportError callbacks .invalidFrameSize
          "Frame size exceeds buffer capacity").trySync callbacks with
        | (true, processor) => .again (processor, extractedAny)
        | (false, processor) => .exit ({ processor with size := 0 }, extractedAny)
      else if ValidFrame processor.live ∧ frameSize processor.live = expected then
        let delivered : StreamProcessor := { processor with
          invocations := processor.invocations ++ [.frame (framePayload processor.live)] }
        .again (delivered.dropFrame sizeType expected, true)
      else
        match (processor.reportError callbacks .crcFailure
          "Frame validation failed").trySync callbacks with
        | (true, processor) => .again (processor, extractedAny)
        | (false, processor) => .again (processor.dropFrame sizeType expected, extractedAny) := by
  have length := live_length inRange
  dsimp only
  by_cases header : processor.size < kHeaderSize
  · have incomplete : Incomplete sizeType processor.live := Or.inl (by rwa [length])
    rw [extractPass, if_pos header, if_pos incomplete]
  have announced : expectedTotalSizeBytes sizeType (loadUInt32 processor.buffer.bytes 4) =
      announcedTotal sizeType processor.live := by
    rw [announcedTotal, live, loadUInt32_take]
    simpa [kHeaderSize] using header
  simp only [extractPass, if_neg header, announced]
  set expected := announcedTotal sizeType processor.live with expectedDef
  by_cases exceeds : expected > kBufferCapacity
  · have oversize : Oversize sizeType processor.live :=
      ⟨Nat.le_of_not_lt (by rwa [length]), exceeds⟩
    have complete : ¬ Incomplete sizeType processor.live := by
      rw [Incomplete, ← expectedDef]
      omega
    rw [if_pos exceeds, if_neg complete]
    exact (if_pos oversize).symm
  rw [if_neg exceeds]
  by_cases minimum : processor.size < kMinimumFrameSize
  · have incomplete : Incomplete sizeType processor.live :=
      Or.inr ⟨Nat.le_of_not_lt exceeds, Or.inl (by rwa [length])⟩
    rw [if_pos minimum, if_pos incomplete]
  rw [if_neg minimum]
  by_cases missing : processor.size < expected
  · have incomplete : Incomplete sizeType processor.live :=
      Or.inr ⟨Nat.le_of_not_lt exceeds, Or.inr (by rwa [length])⟩
    rw [if_pos missing, if_pos incomplete]
  have complete : ¬ Incomplete sizeType processor.live := by
    rw [Incomplete, ← expectedDef]
    omega
  have fits : ¬ Oversize sizeType processor.live := fun oversize => exceeds oversize.2
  rw [if_neg missing, if_neg complete, if_neg fits,
    handleIncoming_live callbacks sizeType processor inRange expected (by omega)]
  by_cases accepted : ValidFrame processor.live ∧ frameSize processor.live = expected
  · rw [if_pos accepted, if_pos accepted, dataHandler_quiet quiet]
  · rw [if_neg accepted]
    exact (if_neg accepted).symm

/-- **One pass of the loop.** -/
theorem extractPass_outcome {callbacks : Callbacks} (quiet : callbacks.Quiet)
    (sizeType : SizeType) (processor : StreamProcessor) (inRange : processor.InRange)
    (extractedAny : Bool) :
    PassOutcome sizeType callbacks processor extractedAny
      (extractPass sizeType callbacks (processor, extractedAny)) := by
  have length := live_length inRange
  rw [extractPass_live quiet sizeType processor inRange]
  dsimp only
  by_cases incomplete : Incomplete sizeType processor.live
  · rw [if_pos incomplete]
    exact .waits incomplete
  rw [if_neg incomplete]
  by_cases oversize : Oversize sizeType processor.live
  · have front := dead_of_oversized sizeType processor.live oversize
    rw [if_pos oversize]
    rcases trySync_reported quiet processor inRange .invalidFrameSize
        "Frame size exceeds buffer capacity" with
      ⟨count, after, positive, inside, version, noVersion, result, moved⟩ | ⟨noVersion, result⟩
    · rw [result]
      exact .resynced (Or.inl ⟨rfl, oversize⟩) positive (by omega) version noVersion
        (skippable_of_no_version _ _ (by omega) front noVersion) moved
    · rw [result]
      rw [← length] at noVersion
      exact .cleared oversize noVersion
        (skippable_of_no_version _ _ (Nat.le_refl _) front noVersion)
        ⟨List.take_zero, rfl, rfl, rfl⟩
  rw [if_neg oversize]
  obtain ⟨minimum, whole, small⟩ := complete_of_neither incomplete oversize
  set expected := announcedTotal sizeType processor.live
  have inside : expected ≤ processor.size := by omega
  by_cases accepted : ValidFrame processor.live ∧ frameSize processor.live = expected
  · obtain ⟨valid, size⟩ := accepted
    rw [if_pos ⟨valid, size⟩]
    have moved := @dropFrame_moved sizeType expected
      { processor with
        invocations := processor.invocations ++ [.frame (framePayload processor.live)] }
      inRange inside
    refine .delivered valid ⟨?_, ?_, ?_, moved.appended_eq⟩
    · rw [size]
      exact moved.live_eq
    · rw [size]
      exact moved.size_eq
    · rw [moved.invocations_eq, List.append_nil]
  · have rejected : Rejected sizeType processor.live := ⟨minimum, whole, small, accepted⟩
    have front := dead_of_rejected sizeType processor.live rejected
    rw [if_neg accepted]
    rcases trySync_reported quiet processor inRange .crcFailure "Frame validation failed" with
      ⟨count, after, positive, inside, version, noVersion, result, moved⟩ | ⟨noVersion, result⟩
    · rw [result]
      exact .resynced (Or.inr ⟨rfl, rejected⟩) positive (by omega) version noVersion
        (skippable_of_no_version _ _ (by omega) front noVersion) moved
    · rw [result]
      have moved := @dropFrame_moved sizeType expected
        (processor.reported callbacks crcReport) inRange inside
      have dropped := moved.of_reported
      rw [List.append_nil] at dropped
      rw [← length] at noVersion
      exact .discarded rejected noVersion
        (skippable_of_no_version _ _ (by omega) front
          fun position first before => noVersion position first (by omega)) dropped

theorem Moved.inRange {before after : StreamProcessor} {events : List Invocation} {count : Nat}
    (moved : before.Moved events (before.live.drop count) after) (inRange : before.InRange) :
    after.InRange := by
  rw [InRange, moved.size_eq, List.length_drop, live_length inRange]
  exact Nat.le_trans (Nat.sub_le _ _) inRange

end StreamProcessor

end Libcomm
