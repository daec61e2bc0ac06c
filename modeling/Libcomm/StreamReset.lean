import Libcomm.StreamOverflow
import Libcomm.StreamSteps

/-!
# Callbacks that reset the processor

A callback may call `reset()`, and the code that invoked it goes on with the size
it computed before.  The machine shows after which callbacks this makes the size
counter wrap.
-/

set_option autoImplicit false

namespace Libcomm

open WhileLoop

/-! ## What the steps do to the size counter -/

namespace StreamProcessor

@[simp] theorem invoke_invocations (callbacks : Callbacks) (invocation : Invocation)
    (processor : StreamProcessor) :
    (processor.invoke callbacks invocation).invocations =
      processor.invocations ++ [invocation] := by
  simp only [invoke]
  split <;> rfl

theorem invoke_size (callbacks : Callbacks) (invocation : Invocation)
    (processor : StreamProcessor) :
    (processor.invoke callbacks invocation).size =
      if callbacks.resets (processor.invoke callbacks invocation).invocations then 0
      else processor.size := by
  rw [invoke_invocations]
  simp only [invoke]
  split <;> rfl

theorem reportError_size (callbacks : Callbacks) (type : ErrorType) (message : String)
    (processor : StreamProcessor) :
    (processor.reportError callbacks type message).size =
      if callbacks.errorRegistered ∧
          callbacks.resets (processor.reportError callbacks type message).invocations then 0
      else processor.size := by
  unfold reportError
  by_cases registered : callbacks.errorRegistered = true
  · rw [if_pos registered, invoke_size]
    simp [registered]
  · rw [if_neg registered, if_neg fun both => registered both.1]

theorem reportError_size_le (callbacks : Callbacks) (type : ErrorType) (message : String)
    (processor : StreamProcessor) :
    (processor.reportError callbacks type message).size ≤ processor.size := by
  rw [reportError_size]
  split
  · exact Nat.zero_le _
  · exact Nat.le_refl _

theorem searchVersion_cases (processor : StreamProcessor) :
    (∃ found, processor.searchVersion = (true, found) ∧ found.size < processor.size) ∨
      processor.searchVersion = (false, processor) := by
  unfold searchVersion
  cases search : (List.range' 1 (processor.size - 1)).find? fun searchPos =>
      processor.buffer.bytes.getD searchPos 0 == kProtocolVersion with
  | some position =>
      have member := List.mem_of_find?_eq_some search
      rw [List.mem_range'_1] at member
      exact Or.inl ⟨_, rfl, show processor.size - position < processor.size by omega⟩
  | none => exact Or.inr rfl

theorem searchVersion_of_no_bytes {processor : StreamProcessor} (none : processor.size = 0) :
    processor.searchVersion = (false, processor) := by
  rcases processor.searchVersion_cases with ⟨found, _, shorter⟩ | missing
  · omega
  · exact missing

theorem append_eq_withChunk {processor : StreamProcessor} {chunk : Bytes}
    (fits : processor.size + chunk.length ≤ kBufferCapacity) :
    processor.append .bits64 chunk = processor.withChunk chunk := by
  have sum : SizeType.bits64.add processor.size chunk.length = processor.size + chunk.length :=
    SizeType.bits64.add_of_lt (Nat.lt_of_le_of_lt fits (by decide))
  simp only [append, withChunk, sum]

theorem append_inRange {processor : StreamProcessor} (inRange : processor.InRange)
    {chunk : Bytes} (enough : ¬ chunk.length > SizeType.bits64.sub kBufferCapacity processor.size) :
    (processor.append .bits64 chunk).InRange := by
  rw [spaceAvailable_eq .bits64 inRange] at enough
  simp only [InRange] at inRange
  have fits : processor.size + chunk.length ≤ kBufferCapacity := by omega
  rw [append_eq_withChunk fits]
  exact fits

theorem dropFrame_inRange {processor : StreamProcessor} (inRange : processor.InRange)
    {expected : Nat} (inside : expected ≤ processor.size) :
    (processor.dropFrame .bits64 expected).InRange :=
  (dropFrame_moved .bits64 expected inRange inside).inRange inRange

end StreamProcessor

namespace StreamState

open StreamProcessor

/-- The size counter is in range, and no subtraction of an announced size wraps. -/
structure Safe (state : StreamState) : Prop where
  inRange : state.processor.InRange
  ordered : ∀ expected, state.point = .delivered expected ∨ state.point = .discarding expected →
    expected ≤ state.processor.size

/-- The callback that has just returned called `reset()` while the announced size
is still to be used: it was handed a frame, or told that one is not valid, or
told about the search after that. -/
def ResetsEarly (callbacks : Callbacks) (state : StreamState) : Prop :=
  match state.point with
  | .delivered _ => callbacks.resets state.processor.invocations = true
  | .crcReported _ =>
      callbacks.errorRegistered = true ∧ callbacks.resets state.processor.invocations = true
  | .crcSearching _ =>
      callbacks.errorRegistered = true ∧ callbacks.resets state.processor.invocations = true
  | _ => False

/-- Everything a step can do.  A calm step leaves no announced size to be used. -/
inductive StepOutcome (callbacks : Callbacks) (before : StreamState) : StreamState → Prop where
  | calm {after : StreamState} (settled : after.point.expected = none)
      (bounded : (∀ expected, before.point.expected = some expected →
        expected ≤ before.processor.size) → after.processor.InRange) :
      StepOutcome callbacks before after
  | delivered {payload : Bytes} {expected : Nat} (minimum : kMinimumFrameSize ≤ expected)
      (inside : expected ≤ before.processor.size) :
      StepOutcome callbacks before
        ⟨.delivered expected, before.processor.invoke callbacks (.frame payload), before.calls⟩
  | crcReported {expected : Nat} (minimum : kMinimumFrameSize ≤ expected)
      (inside : expected ≤ before.processor.size) :
      StepOutcome callbacks before
        ⟨.crcReported expected, before.processor.reportError callbacks .crcFailure
          "Frame validation failed", before.calls⟩
  | crcSearching {expected : Nat} (reported : before.point = .crcReported expected) :
      StepOutcome callbacks before
        ⟨.crcSearching expected, before.processor.reportSync callbacks, before.calls⟩
  | discarding {expected : Nat} (searched : before.point = .crcSearching expected) :
      StepOutcome callbacks before ⟨.discarding expected, before.processor, before.calls⟩

theorem StepOutcome.settled {callbacks : Callbacks} {before after : StreamState}
    (settled : after.point.expected = none) (inRange : before.processor.InRange)
    (le : after.processor.size ≤ before.processor.size) : StepOutcome callbacks before after :=
  .calm settled fun _ => Nat.le_trans le inRange

theorem loopStep_outcome (callbacks : Callbacks) (processor : StreamProcessor)
    (inRange : processor.InRange) (calls : List StreamCall) :
    StepOutcome callbacks ⟨.looping, processor, calls⟩
      ⟨(loopStep .bits64 callbacks processor).1, (loopStep .bits64 callbacks processor).2,
        calls⟩ := by
  have total := announcedTotal_bits64 processor.buffer.bytes
  rw [announcedTotal] at total
  simp only [loopStep, total]
  by_cases header : processor.size < kHeaderSize
  · simp only [if_pos header]
    exact .settled rfl inRange (Nat.le_refl _)
  by_cases exceeds : frameSize processor.buffer.bytes > kBufferCapacity
  · simp only [if_neg header, if_pos exceeds]
    exact .settled rfl inRange (reportError_size_le _ _ _ _)
  by_cases minimum : processor.size < kMinimumFrameSize
  · simp only [if_neg header, if_neg exceeds, if_pos minimum]
    exact .settled rfl inRange (Nat.le_refl _)
  by_cases incomplete : processor.size < frameSize processor.buffer.bytes
  · simp only [if_neg header, if_neg exceeds, if_neg minimum, if_pos incomplete]
    exact .settled rfl inRange (Nat.le_refl _)
  have inside := Nat.le_of_not_lt incomplete
  simp only [if_neg header, if_neg exceeds, if_neg minimum, if_neg incomplete,
    handleIncoming_live callbacks .bits64 processor inRange _ inside]
  split
  · next accepted =>
      split at accepted <;> cases accepted
      exact .delivered (frameSize_ge _) inside
  · next rejected =>
      split at rejected <;> cases rejected
      exact .crcReported (frameSize_ge _) inside

theorem enter_outcome (callbacks : Callbacks) (processor : StreamProcessor)
    (inRange : processor.InRange) (call : StreamCall) (calls : List StreamCall) :
    StepOutcome callbacks ⟨.waiting, processor, call :: calls⟩
      ⟨(enter .bits64 callbacks processor call).1, (enter .bits64 callbacks processor call).2,
        calls⟩ := by
  match call with
  | .reset => exact .settled rfl inRange (Nat.zero_le _)
  | .feed none => exact .settled rfl inRange (Nat.le_refl _)
  | .feed (some chunk) =>
      simp only [enter]
      by_cases empty : chunk.length = 0
      · simp only [if_pos empty]
        exact .settled rfl inRange (Nat.le_refl _)
      by_cases missing : ¬ callbacks.frameRegistered
      · simp only [if_neg empty, if_pos missing]
        exact .settled rfl inRange (reportError_size_le _ _ _ _)
      by_cases overflow : chunk.length > SizeType.bits64.sub kBufferCapacity processor.size
      · simp only [if_neg empty, if_neg missing, if_pos overflow]
        exact .settled rfl inRange (reportError_size_le _ _ _ _)
      · simp only [if_neg empty, if_neg missing, if_neg overflow]
        exact .calm rfl fun _ => append_inRange inRange overflow

theorem resume_outcome (callbacks : Callbacks) (point : StreamPoint)
    (processor : StreamProcessor) (inRange : processor.InRange) (calls : List StreamCall) :
    StepOutcome callbacks ⟨point, processor, calls⟩
      ⟨(resume .bits64 callbacks processor point).1, (resume .bits64 callbacks processor point).2,
        calls⟩ := by
  have searched := processor.searchVersion_cases
  cases point with
  | waiting => exact .settled rfl inRange (Nat.le_refl _)
  | overflowReported chunk => exact .settled rfl inRange (reportError_size_le _ _ _ _)
  | overflowSearching chunk =>
      rcases searched with ⟨found, result, shorter⟩ | result <;> simp only [resume, result]
      · exact .settled rfl inRange (Nat.le_of_lt shorter)
      · exact .settled rfl inRange (Nat.zero_le _)
  | spaceRecovered chunk =>
      simp only [resume]
      by_cases still : chunk.length > SizeType.bits64.sub kBufferCapacity processor.size
      · simp only [if_pos still]
        exact .settled rfl inRange (Nat.le_refl _)
      · simp only [if_neg still]
        exact .calm rfl fun _ => append_inRange inRange still
  | looping => exact loopStep_outcome callbacks processor inRange calls
  | oversizeReported => exact .settled rfl inRange (reportError_size_le _ _ _ _)
  | oversizeSearching =>
      rcases searched with ⟨found, result, shorter⟩ | result <;> simp only [resume, result]
      · exact .settled rfl inRange (Nat.le_of_lt shorter)
      · exact .settled rfl inRange (Nat.zero_le _)
  | delivered expected =>
      exact .calm rfl fun inside => dropFrame_inRange inRange (inside expected rfl)
  | crcReported expected => exact .crcSearching rfl
  | crcSearching expected =>
      rcases searched with ⟨found, result, shorter⟩ | result <;> simp only [resume, result]
      · exact .settled rfl inRange (Nat.le_of_lt shorter)
      · exact .discarding rfl
  | discarding expected =>
      exact .calm rfl fun inside => dropFrame_inRange inRange (inside expected rfl)

theorem step_outcome (callbacks : Callbacks) {before after : StreamState}
    (inRange : before.processor.InRange) (stepped : step .bits64 callbacks before = .again after) :
    StepOutcome callbacks before after := by
  obtain ⟨point, processor, calls⟩ := before
  by_cases waiting : point = .waiting
  · subst waiting
    cases calls with
    | nil => cases stepped
    | cons call calls =>
        obtain rfl := Pass.again.inj stepped
        exact enter_outcome callbacks processor inRange call calls
  · have resumed := resume_outcome callbacks point processor inRange calls
    cases point with
    | waiting => exact absurd rfl waiting
    | _ =>
        obtain rfl := Pass.again.inj stepped
        exact resumed

/-! ## Runs -/

/-- While no callback resets early, announced sizes stay within the buffered bytes. -/
structure Sound (state : StreamState) : Prop where
  inRange : state.processor.InRange
  inside : ∀ expected, state.point.expected = some expected → expected ≤ state.processor.size

theorem Sound.safe {state : StreamState} (sound : state.Sound) : state.Safe := by
  refine ⟨sound.inRange, ?_⟩
  intro expected points
  apply sound.inside expected
  rcases points with point | point <;> rw [point] <;> rfl

theorem Sound.step {callbacks : Callbacks} {before after : StreamState} (sound : before.Sound)
    (stepped : StreamState.step .bits64 callbacks before = .again after)
    (late : ¬ after.ResetsEarly callbacks) : after.Sound := by
  have outcome := step_outcome callbacks sound.inRange stepped
  cases outcome with
  | calm settled bounded =>
      refine ⟨bounded sound.inside, fun expected point => ?_⟩
      rw [settled] at point
      cases point
  | @delivered payload expected _ inside =>
      have size : (before.processor.invoke callbacks (.frame payload)).size =
          before.processor.size := by
        rw [invoke_size]
        exact if_neg late
      refine ⟨Nat.le_trans (Nat.le_of_eq size) sound.inRange, fun _ point => ?_⟩
      cases point
      exact Nat.le_trans inside (Nat.le_of_eq size.symm)
  | @crcReported expected _ inside =>
      have size : (before.processor.reportError callbacks .crcFailure
          "Frame validation failed").size = before.processor.size := by
        rw [reportError_size]
        exact if_neg late
      refine ⟨Nat.le_trans (Nat.le_of_eq size) sound.inRange, fun _ point => ?_⟩
      cases point
      exact Nat.le_trans inside (Nat.le_of_eq size.symm)
  | @crcSearching expected reported =>
      have inside := sound.inside expected (by rw [reported]; rfl)
      have size : (before.processor.reportSync callbacks).size = before.processor.size := by
        rw [reportSync, reportError_size]
        exact if_neg late
      refine ⟨Nat.le_trans (Nat.le_of_eq size) sound.inRange, fun _ point => ?_⟩
      cases point
      exact Nat.le_trans inside (Nat.le_of_eq size.symm)
  | @discarding expected searched =>
      refine ⟨sound.inRange, fun _ point => ?_⟩
      cases point
      exact sound.inside expected (by rw [searched]; rfl)

/-- Every announced size that is still to be used has room for a header and a checksum. -/
theorem minimum_of_leads {callbacks : Callbacks} {first state : StreamState}
    (waiting : first.point = .waiting)
    (safe : ∀ visited, Leads .bits64 callbacks first visited → visited.Safe)
    (reached : Leads .bits64 callbacks first state) {expected : Nat}
    (point : state.point.expected = some expected) : kMinimumFrameSize ≤ expected := by
  induction reached generalizing expected with
  | refl =>
      rw [waiting] at point
      cases point
  | @tail before after reachedBefore stepped ih =>
      have outcome := step_outcome callbacks (safe before reachedBefore).inRange stepped
      cases outcome with
      | calm settled _ =>
          rw [settled] at point
          cases point
      | delivered minimum _ =>
          cases point
          exact minimum
      | crcReported minimum _ =>
          cases point
          exact minimum
      | crcSearching reported =>
          cases point
          exact ih (by rw [reported]; rfl)
      | discarding searched =>
          cases point
          exact ih (by rw [searched]; rfl)

/-- From an empty buffer the search fails, and the announced size is subtracted. -/
theorem not_safe_of_searching {callbacks : Callbacks} {processor : StreamProcessor}
    {expected : Nat} {calls : List StreamCall} (none : processor.size = 0)
    (minimum : kMinimumFrameSize ≤ expected) :
    ∃ visited, Leads .bits64 callbacks ⟨.crcSearching expected, processor, calls⟩ visited ∧
      ¬ visited.Safe := by
  have searched := @leads_resume .bits64 callbacks (.crcSearching expected) (by simp) processor
    calls
  simp only [resume, searchVersion_of_no_bytes none] at searched
  refine ⟨_, searched, fun safe => ?_⟩
  have positive : 0 < kMinimumFrameSize := by decide
  have inside : expected ≤ processor.size := safe.ordered expected (Or.inr rfl)
  omega

theorem not_safe_of_resetsEarly {callbacks : Callbacks} {before after : StreamState}
    (inRange : before.processor.InRange)
    (stepped : step .bits64 callbacks before = .again after)
    (minimum : ∀ expected, after.point.expected = some expected → kMinimumFrameSize ≤ expected)
    (early : after.ResetsEarly callbacks) :
    ∃ visited, Leads .bits64 callbacks after visited ∧ ¬ visited.Safe := by
  have positive : 0 < kMinimumFrameSize := by decide
  have outcome := step_outcome callbacks inRange stepped
  cases outcome with
  | calm settled _ =>
      exfalso
      obtain ⟨point, processor, calls⟩ := after
      cases point with
      | delivered _ => cases settled
      | crcReported _ => cases settled
      | crcSearching _ => cases settled
      | _ => exact early
  | @delivered payload expected least _ =>
      refine ⟨_, .refl, fun safe => ?_⟩
      have inside := safe.ordered expected (Or.inl rfl)
      have none : (before.processor.invoke callbacks (.frame payload)).size = 0 := by
        rw [invoke_size]
        exact if_pos early
      dsimp only at inside
      omega
  | @crcReported expected least _ =>
      have none : (before.processor.reportError callbacks .crcFailure
          "Frame validation failed").size = 0 := by
        rw [reportError_size]
        exact if_pos early
      have still : ((before.processor.reportError callbacks .crcFailure
          "Frame validation failed").reportSync callbacks).size = 0 :=
        Nat.le_zero.mp (Nat.le_trans (reportError_size_le _ _ _ _) (Nat.le_of_eq none))
      obtain ⟨visited, reached, wraps⟩ := not_safe_of_searching still least
      exact ⟨visited, (leads_resume (by simp) _ before.calls).trans reached, wraps⟩
  | @crcSearching expected reported =>
      have none : (before.processor.reportSync callbacks).size = 0 := by
        rw [reportSync, reportError_size]
        exact if_pos early
      exact not_safe_of_searching none (minimum expected rfl)
  | discarding _ => exact early.elim

/-- **Exactly when resetting from a callback is safe**, over every state inside
and between the calls of a run. -/
theorem reset_in_callback_is_safe_iff (callbacks : Callbacks) (buffer : FrameBuffer)
    (calls : List StreamCall) :
    (∀ state, Leads .bits64 callbacks ⟨.waiting, empty buffer, calls⟩ state → state.Safe) ↔
    ∀ state, Leads .bits64 callbacks ⟨.waiting, empty buffer, calls⟩ state →
      ¬ state.ResetsEarly callbacks := by
  constructor
  · intro safe state reached early
    have minimum (expected : Nat) (point : state.point.expected = some expected) :
        kMinimumFrameSize ≤ expected := minimum_of_leads rfl safe reached point
    cases reached with
    | refl => exact early
    | @tail before _ reachedBefore stepped =>
        obtain ⟨visited, later, wraps⟩ :=
          not_safe_of_resetsEarly (safe before reachedBefore).inRange stepped minimum early
        exact wraps (safe visited ((reachedBefore.tail stepped).trans later))
  · intro late state reached
    have sound : state.Sound := by
      induction reached with
      | refl => exact ⟨Nat.zero_le _, fun _ point => by cases point⟩
      | tail reachedBefore stepped ih =>
          exact ih.step stepped (late _ (reachedBefore.tail stepped))
    exact sound.safe

theorem loopStep_of_valid (callbacks : Callbacks) {processor : StreamProcessor}
    (inRange : processor.InRange) (valid : ValidFrame processor.live) :
    loopStep .bits64 callbacks processor =
      (.delivered (frameSize processor.live),
        processor.invoke callbacks (.frame (framePayload processor.live))) := by
  have length := live_length inRange
  have complete := valid.complete
  have minimum : kMinimumFrameSize ≤ frameSize processor.live := frameSize_ge processor.live
  have order : kHeaderSize ≤ kMinimumFrameSize := by decide
  have total : expectedTotalSizeBytes .bits64 (loadUInt32 processor.buffer.bytes 4) =
      frameSize processor.live := by
    rw [← announcedTotal_bits64, announcedTotal, live, loadUInt32_take]
    simp only [kHeaderSize] at order
    omega
  have small := frameSize_le_capacity valid.size_le
  simp only [loopStep, total]
  rw [if_neg (by omega), if_neg (by omega), if_neg (by omega), if_neg (by omega),
    handleIncoming_live callbacks .bits64 processor inRange _ (by omega), if_pos ⟨valid, rfl⟩]
  rfl

theorem enter_of_fits {callbacks : Callbacks} (registered : callbacks.frameRegistered = true)
    {processor : StreamProcessor} {chunk : Bytes} (nonEmpty : chunk ≠ [])
    (fits : processor.size + chunk.length ≤ kBufferCapacity) :
    enter .bits64 callbacks processor (.feed (some chunk)) =
      (.looping, processor.withChunk chunk) := by
  have inRange : processor.InRange := Nat.le_trans (Nat.le_add_right _ _) fits
  simp only [enter, registered, spaceAvailable_eq .bits64 inRange, append_eq_withChunk fits]
  rw [if_neg (fun zero => nonEmpty (List.length_eq_zero_iff.mp zero)), if_neg (by simp),
    if_neg (by omega)]

def resettingCallbacks : Callbacks := ⟨true, false, fun _ => true⟩

theorem reset_in_frame_callback_wraps :
    ∃ state, Leads .bits64 resettingCallbacks
        ⟨.waiting, empty .zeros, [.feed (some (encodeFrame 7 []))]⟩ state ∧
      state.point = .delivered 12 ∧ state.processor.size = 0 ∧
      (state.processor.dropFrame .bits64 12).size = 2 ^ 64 - 12 ∧ ¬ state.Safe := by
  have length : (encodeFrame 7 []).length = 12 := encodeFrame_length 7 []
  obtain ⟨inRange, live⟩ := @withChunk_of_empty (empty .zeros) rfl (encodeFrame 7 [])
    (by rw [length]; decide)
  have entered := @leads_enter .bits64 resettingCallbacks (empty .zeros)
    (.feed (some (encodeFrame 7 []))) []
  have looped := @leads_resume .bits64 resettingCallbacks .looping (by simp)
    ((empty .zeros).withChunk (encodeFrame 7 [])) []
  have delivered := loopStep_of_valid resettingCallbacks inRange
    (live.symm ▸ validFrame_encodeFrame 7 [] (by decide))
  rw [live, frameSize_encodeFrame 7 [] (by decide), length] at delivered
  have taken := @enter_of_fits resettingCallbacks rfl (empty .zeros) (encodeFrame 7 [])
    (List.ne_nil_of_length_eq_add_one length) inRange
  simp only [taken] at entered
  simp only [resume, delivered] at looped
  have none (invocation : Invocation) (processor : StreamProcessor) :
      (processor.invoke resettingCallbacks invocation).size = 0 := by
    rw [invoke_size]
    rfl
  refine ⟨_, entered.trans looped, rfl, none _ _, ?_, ?_⟩
  · rw [dropFrame, none]
    decide
  · intro safe
    have inside := safe.ordered 12 (Or.inl rfl)
    rw [none] at inside
    exact absurd inside (by decide)

end StreamState

end Libcomm
