import Libcomm.StreamCleanStream
import Mathlib.Data.List.Induction

/-!
# Chunks that do not fit

When a chunk does not fit, `feed` first gives up the bytes in front of the next
version byte, and takes the chunk if it fits then.  The two halves of the module
say what this does to the frame that was being received, and what may be left at
the front of the buffer when the chunk is refused after all.
-/

set_option autoImplicit false

namespace Libcomm

open FrameScan WhileLoop

namespace StreamProcessor

/-! ## What the recovery drops -/

/-- As many bytes as are in front of the next version byte, or all of them. -/
structure Resyncs (bytes : Bytes) (count : Nat) : Prop where
  positive : bytes ≠ [] → 1 ≤ count
  inside : count ≤ bytes.length
  noVersion : NoVersionBefore bytes count
  version : count < bytes.length → bytes.getD count 0 = kProtocolVersion

theorem Resyncs.unique {bytes : Bytes} {count other : Nat} (first : Resyncs bytes count)
    (second : Resyncs bytes other) : count = other := by
  by_cases empty : bytes = []
  · have firstInside := first.inside
    have secondInside := second.inside
    rw [empty, List.length_nil] at firstInside secondInside
    omega
  have notBefore {early late : Nat} (found : Resyncs bytes early) (later : Resyncs bytes late) :
      ¬ early < late := by
    intro less
    exact later.noVersion early (found.positive empty) less
      (found.version (Nat.lt_of_lt_of_le less later.inside))
  exact Nat.le_antisymm (Nat.le_of_not_lt (notBefore second first))
    (Nat.le_of_not_lt (notBefore first second))

theorem Resyncs.whole {bytes : Bytes} (noVersion : NoVersionBefore bytes bytes.length) :
    Resyncs bytes bytes.length :=
  ⟨List.length_pos_iff.mpr, Nat.le_refl _, noVersion, fun beyond => absurd beyond (Nat.lt_irrefl _)⟩

theorem recoverSpace_resyncs {callbacks : Callbacks} (quiet : callbacks.Quiet)
    {processor : StreamProcessor} (inRange : processor.InRange) :
    ∃ count, Resyncs processor.live count ∧
      processor.Moved (callbacks.reports overflowReport)
        (processor.live.drop count) (processor.recoverSpace callbacks) := by
  rcases recoverSpace_cases quiet inRange with
    ⟨count, positive, inside, version, noVersion, moved⟩ | ⟨noVersion, moved⟩
  · exact ⟨count, ⟨fun _ => positive, Nat.le_of_lt inside, noVersion, fun _ => version⟩, moved⟩
  · refine ⟨processor.live.length, .whole noVersion, ?_⟩
    rw [List.drop_length]
    exact moved

/-! ## Calls that return

Both widths of `std::size_t`, so these start from a call that has returned.
-/

theorem extractFrames_extracted {callbacks : Callbacks} (quiet : callbacks.Quiet)
    (sizeType : SizeType) {processor after : StreamProcessor} (inRange : processor.InRange)
    (result : (processor.extractFrames sizeType callbacks).map Prod.fst = some after) :
    Extracted callbacks processor after ∧ Incomplete sizeType after.live := by
  obtain ⟨final, finished, rfl⟩ := Option.map_eq_some_iff.mp result
  exact run_extracted quiet sizeType inRange finished

theorem feed_fits_extracted {callbacks : Callbacks} (quiet : callbacks.Quiet)
    (registered : callbacks.frameRegistered = true) (sizeType : SizeType)
    {before after : StreamProcessor} {chunk : Bytes} (nonEmpty : chunk ≠ [])
    (fits : before.size + chunk.length ≤ kBufferCapacity)
    (fed : before.feed sizeType callbacks (some chunk) = some after) :
    Extracted callbacks (before.withChunk chunk) after ∧ Incomplete sizeType after.live := by
  have start : (before.withChunk chunk).InRange := fits
  rw [feed_fits sizeType registered nonEmpty fits] at fed
  exact extractFrames_extracted quiet sizeType start fed

theorem feed_overflow_cases {callbacks : Callbacks} (quiet : callbacks.Quiet)
    (registered : callbacks.frameRegistered = true) (sizeType : SizeType)
    {before after : StreamProcessor} (inRange : before.InRange) {chunk : Bytes}
    (overflow : kBufferCapacity < before.size + chunk.length)
    (fed : before.feed sizeType callbacks (some chunk) = some after) :
    ∃ count recovered, Resyncs before.live count ∧
      before.Moved (callbacks.reports overflowReport) (before.live.drop count) recovered ∧
      ((before.size - count + chunk.length ≤ kBufferCapacity ∧
          Extracted callbacks (recovered.withChunk chunk) after ∧
          (recovered.withChunk chunk).live = before.live.drop count ++ chunk ∧
          Incomplete sizeType after.live) ∨
        (kBufferCapacity < before.size - count + chunk.length ∧ after = recovered)) := by
  obtain ⟨count, resyncs, cleared⟩ := recoverSpace_resyncs quiet inRange
  have size := cleared.size_eq
  rw [List.length_drop, live_length inRange] at size
  refine ⟨count, before.recoverSpace callbacks, resyncs, cleared, ?_⟩
  rw [feed_overflows sizeType quiet registered inRange overflow] at fed
  by_cases enough : (before.recoverSpace callbacks).size + chunk.length ≤ kBufferCapacity
  · rw [if_pos enough] at fed
    have start : ((before.recoverSpace callbacks).withChunk chunk).InRange := enough
    obtain ⟨moved, incomplete⟩ := extractFrames_extracted quiet sizeType start fed
    refine Or.inl ⟨size ▸ enough, moved, ?_, incomplete⟩
    rw [withChunk_live enough, cleared.live_eq]
  · rw [if_neg enough] at fed
    cases fed
    exact Or.inr ⟨size ▸ Nat.lt_of_not_le enough, rfl⟩

theorem feed_inRange {callbacks : Callbacks} (quiet : callbacks.Quiet) (sizeType : SizeType)
    {before after : StreamProcessor} (inRange : before.InRange) {chunk : Bytes}
    (fed : before.feed sizeType callbacks (some chunk) = some after) : after.InRange := by
  by_cases empty : chunk = []
  · simp only [feed, empty, List.length_nil, if_true] at fed
    cases fed
    exact inRange
  cases registered : callbacks.frameRegistered with
  | false =>
      simp only [feed, List.length_eq_zero_iff, empty, registered, if_false, Bool.false_eq_true,
        not_false_eq_true, if_true, reportError_quiet quiet] at fed
      cases fed
      exact inRange
  | true =>
      by_cases fits : before.size + chunk.length ≤ kBufferCapacity
      · exact (feed_fits_extracted quiet registered sizeType empty fits fed).1.inRange
      · obtain ⟨_, _, _, cleared, ⟨_, moved, _⟩ | ⟨_, rfl⟩⟩ := feed_overflow_cases quiet registered
          sizeType inRange (Nat.lt_of_not_le fits) fed
        · exact moved.inRange
        · exact cleared.inRange inRange

theorem run_inRange {callbacks : Callbacks} (quiet : callbacks.Quiet) (sizeType : SizeType)
    (calls : List StreamCall) {before after : StreamProcessor} (inRange : before.InRange)
    (ran : before.run sizeType callbacks calls = some after) : after.InRange := by
  induction calls generalizing before with
  | nil =>
      cases ran
      exact inRange
  | cons call rest ih =>
      rw [run_cons] at ran
      obtain ⟨middle, called, ran⟩ := Option.bind_eq_some_iff.mp ran
      refine ih ?_ ran
      match call, called with
      | .reset, called =>
          cases called
          exact Nat.zero_le _
      | .feed none, called =>
          cases called
          exact inRange
      | .feed (some chunk), called => exact feed_inRange quiet sizeType inRange called

theorem withChunk_of_empty {processor : StreamProcessor} (none : processor.size = 0)
    {chunk : Bytes} (fits : chunk.length ≤ kBufferCapacity) :
    (processor.withChunk chunk).InRange ∧ (processor.withChunk chunk).live = chunk := by
  have room : processor.size + chunk.length ≤ kBufferCapacity := by
    rw [none, Nat.zero_add]
    exact fits
  refine ⟨room, ?_⟩
  rw [withChunk_live room, live, none, List.take_zero, List.nil_append]

/-- Bytes that announce more than they are stay in an empty buffer. -/
theorem feed_buffers {callbacks : Callbacks} (quiet : callbacks.Quiet)
    (registered : callbacks.frameRegistered = true) (sizeType : SizeType)
    {before : StreamProcessor} (none : before.size = 0) {chunk : Bytes} (nonEmpty : chunk ≠ [])
    (fits : chunk.length ≤ kBufferCapacity) (incomplete : Incomplete sizeType chunk) :
    ∃ after, before.feed sizeType callbacks (some chunk) = some after ∧ after.InRange ∧
      after.live = chunk ∧ after.invocations = before.invocations := by
  obtain ⟨start, live⟩ := withChunk_of_empty none fits
  have room : before.size + chunk.length ≤ kBufferCapacity := start
  refine ⟨before.withChunk chunk, ?_, start, live, rfl⟩
  rw [feed_fits sizeType registered nonEmpty room, extractFrames,
    run_exit (extractPass_of_incomplete quiet sizeType start false (live.symm ▸ incomplete))]
  rfl

/-! ## What stays at the front of the buffer -/

theorem announcedTotal_bits64 (bytes : Bytes) :
    announcedTotal .bits64 bytes = frameSize bytes := by
  rcases expectedTotalSizeBytes_cases .bits64 (loadUInt32 bytes 4) with exact | ⟨width, _, _⟩
  · exact exact
  · cases width

/-- Extracting again delivers nothing and changes nothing. -/
structure AtRest (callbacks : Callbacks) (processor : StreamProcessor) : Prop where
  unchanged : processor.extractFrames .bits64 callbacks = some (processor, false)
  front : processor.getBufferUsage < kHeaderSize ∨
    (announcedTotal .bits64 processor.live ≤ kBufferCapacity ∧
      processor.getBufferUsage < announcedTotal .bits64 processor.live)
  noFrame : ¬ ValidFrame processor.live

theorem atRest_iff {callbacks : Callbacks} (quiet : callbacks.Quiet)
    {processor : StreamProcessor} (inRange : processor.InRange) :
    AtRest callbacks processor ↔ Incomplete .bits64 processor.live := by
  have length : processor.live.length = processor.getBufferUsage := live_length inRange
  constructor
  · intro rests
    rcases rests.front with short | ⟨fits, short⟩
    · exact Or.inl (by omega)
    · exact Or.inr ⟨fits, Or.inr (by omega)⟩
  · intro incomplete
    refine ⟨?_, ?_, fun valid => not_incomplete_of_valid .bits64 valid incomplete⟩
    · exact run_exit (extractPass_of_incomplete quiet .bits64 inRange false incomplete) _
    · have minimum := frameSize_ge processor.live
      rw [← announcedTotal_bits64] at minimum
      have order : kMinimumFrameSize = kHeaderSize + kCrcSize := rfl
      rcases incomplete with short | ⟨fits, short | short⟩
      · exact Or.inl (by omega)
      · exact Or.inr ⟨fits, by omega⟩
      · exact Or.inr ⟨fits, by omega⟩

theorem incomplete_of_no_bytes (sizeType : SizeType) {processor : StreamProcessor}
    (none : processor.size = 0) : Incomplete sizeType processor.live := by
  left
  rw [live, none, List.take_zero]
  decide

/-- The chunk does not even fit behind the next version byte, and there stands
something else than the start of an unfinished frame. -/
def Strands (processor : StreamProcessor) : StreamCall → Prop
  | .feed (some chunk) =>
      ∃ count, Resyncs processor.live count ∧
        kBufferCapacity < processor.getBufferUsage - count + chunk.length ∧
        ¬ Incomplete .bits64 (processor.live.drop count)
  | .feed none => False
  | .reset => False

/-- One call leaves the start of an unfinished frame, unless it strands what
stands behind the next version byte. -/
theorem call_incomplete_iff {callbacks : Callbacks} (quiet : callbacks.Quiet)
    (registered : callbacks.frameRegistered = true) {processor : StreamProcessor}
    (inRange : processor.InRange) (incomplete : Incomplete .bits64 processor.live)
    (call : StreamCall) :
    ∃ after, processor.call .bits64 callbacks call = some after ∧ after.InRange ∧
      (Incomplete .bits64 after.live ↔ ¬ Strands processor call) := by
  cases call with
  | reset =>
      exact ⟨processor.reset, rfl, Nat.zero_le _,
        iff_of_true (incomplete_of_no_bytes .bits64 rfl) id⟩
  | feed data =>
      cases data with
      | none => exact ⟨processor, rfl, inRange, iff_of_true incomplete id⟩
      | some chunk =>
          by_cases empty : chunk = []
          · subst empty
            refine ⟨processor, rfl, inRange, iff_of_true incomplete ?_⟩
            intro strands
            obtain ⟨count, _, overflow, _⟩ := strands
            simp only [List.length_nil, InRange, getBufferUsage] at overflow inRange
            omega
          obtain ⟨after, fed, _⟩ := feed_outcome quiet inRange chunk
          refine ⟨after, fed, feed_inRange quiet .bits64 inRange fed, ?_⟩
          by_cases fits : processor.size + chunk.length ≤ kBufferCapacity
          · have later := (feed_fits_extracted quiet registered .bits64 empty fits fed).2
            refine iff_of_true later ?_
            intro strands
            obtain ⟨count, _, overflow, _⟩ := strands
            simp only [getBufferUsage] at overflow
            omega
          · obtain ⟨count, recovered, resyncs, cleared, ⟨enough, _, _, later⟩ | ⟨still, rfl⟩⟩ :=
              feed_overflow_cases quiet registered .bits64 inRange (Nat.lt_of_not_le fits) fed
            · refine iff_of_true later ?_
              intro strands
              obtain ⟨other, found, overflow, _⟩ := strands
              rw [found.unique resyncs] at overflow
              exact absurd enough (Nat.not_le_of_lt overflow)
            · rw [cleared.live_eq]
              constructor
              · intro left strands
                obtain ⟨other, found, _, stranded⟩ := strands
                rw [found.unique resyncs] at stranded
                exact stranded left
              · intro unfinished
                by_contra stranded
                exact unfinished ⟨count, resyncs, still, stranded⟩

theorem run_append (sizeType : SizeType) (callbacks : Callbacks) (processor : StreamProcessor)
    (front back : List StreamCall) :
    processor.run sizeType callbacks (front ++ back) =
      (processor.run sizeType callbacks front).bind fun middle =>
        middle.run sizeType callbacks back :=
  List.foldlM_append

/-- **Exactly when nothing deliverable is left behind**: extracting again would
change nothing after any call of a run, if and only if no chunk is refused after
the bytes in front of a version byte were dropped, with something else than the
start of an unfinished frame behind it. -/
theorem feed_leaves_nothing_iff {callbacks : Callbacks} (quiet : callbacks.Quiet)
    (registered : callbacks.frameRegistered = true) (buffer : FrameBuffer)
    (calls : List StreamCall) :
    (∀ front back, calls = front ++ back →
      ∃ state, (empty buffer).run .bits64 callbacks front = some state ∧
        AtRest callbacks state) ↔
    ∀ front call back state, calls = front ++ call :: back →
      (empty buffer).run .bits64 callbacks front = some state → ¬ Strands state call := by
  have start : (empty buffer).InRange := Nat.zero_le _
  constructor
  · intro rests front call back state whole ran
    have inRange := run_inRange quiet .bits64 front start ran
    obtain ⟨same, sameRan, sameRests⟩ := rests front (call :: back) whole
    cases sameRan.symm.trans ran
    obtain ⟨after, called, afterInRange, left⟩ :=
      call_incomplete_iff quiet registered inRange ((atRest_iff quiet inRange).mp sameRests) call
    obtain ⟨next, nextRan, nextRests⟩ := rests (front ++ [call]) back (by simp [whole])
    rw [run_append, ran, Option.bind_some, run_cons, called] at nextRan
    cases nextRan
    exact left.mp ((atRest_iff quiet afterInRange).mp nextRests)
  · intro unfinished front back whole
    induction front using List.reverseRecOn generalizing back with
    | nil =>
        exact ⟨empty buffer, rfl,
          (atRest_iff quiet start).mpr (incomplete_of_no_bytes .bits64 rfl)⟩
    | append_singleton front call ih =>
        rw [List.append_assoc, List.singleton_append] at whole
        obtain ⟨state, ran, rests⟩ := ih (call :: back) whole
        have inRange := run_inRange quiet .bits64 front start ran
        obtain ⟨after, called, afterInRange, left⟩ :=
          call_incomplete_iff quiet registered inRange ((atRest_iff quiet inRange).mp rests) call
        refine ⟨after, ?_, (atRest_iff quiet afterInRange).mpr
          (left.mpr (unfinished front call back state whole ran))⟩
        rw [run_append, ran, Option.bind_some, run_cons, called]
        rfl

theorem feed_leaves_nothing_iff_half_header :
    (∀ front back, [.feed (some [1, 0, 0]), .reset] = front ++ back →
      ∃ state, (empty .zeros).run .bits64 listeningCallbacks front = some state ∧
        AtRest listeningCallbacks state) ↔
    ∀ front call back state, [.feed (some [1, 0, 0]), .reset] = front ++ call :: back →
      (empty .zeros).run .bits64 listeningCallbacks front = some state → ¬ Strands state call :=
  feed_leaves_nothing_iff listeningCallbacks_quiet rfl .zeros [.feed (some [1, 0, 0]), .reset]

/-- A header that announces a thousand bytes, and a complete frame behind it. -/
def shadowedFrame : Bytes := [1, 0, 0, 0, 0xE8, 0x03, 0, 0] ++ encodeFrame 7 []

theorem shadowedFrame_resyncs : Resyncs shadowedFrame 8 := by
  have noVersion : ∀ position < 8, 1 ≤ position →
      shadowedFrame.getD position 0 ≠ kProtocolVersion := by decide
  exact ⟨fun _ => by decide, by decide, fun position first inside =>
    noVersion position inside first, fun _ => rfl⟩

theorem complete_frame_waits :
    ∃ after, (empty .zeros).run .bits64 listeningCallbacks
        [.feed (some shadowedFrame), .feed (some (List.replicate 4109 0))] = some after ∧
      after.live = encodeFrame 7 [] ∧ payloadsOf after.invocations = [] ∧
      ¬ AtRest listeningCallbacks after := by
  obtain ⟨first, buffered, inRange, live, invocations⟩ :=
    @feed_buffers listeningCallbacks listeningCallbacks_quiet rfl .bits64 (empty .zeros) rfl
      shadowedFrame (by decide) (by decide) (Or.inr ⟨by decide, Or.inr (by decide)⟩)
  have tooLong (kept : Nat) :
      kBufferCapacity < kept + (List.replicate 4109 (0 : UInt8)).length := by
    rw [List.length_replicate]
    exact Nat.lt_of_lt_of_le (by decide : kBufferCapacity < 4109) (Nat.le_add_left _ _)
  obtain ⟨after, fed, _⟩ :=
    feed_outcome listeningCallbacks_quiet inRange (List.replicate 4109 0)
  obtain ⟨count, recovered, resyncs, cleared, ⟨enough, _⟩ | ⟨_, rfl⟩⟩ :=
    feed_overflow_cases listeningCallbacks_quiet rfl .bits64 inRange (tooLong _) fed
  · exact absurd enough (Nat.not_le_of_lt (tooLong _))
  rw [live] at resyncs
  cases resyncs.unique shadowedFrame_resyncs
  have left : after.live = encodeFrame 7 [] := by
    rw [cleared.live_eq, live]
    rfl
  refine ⟨after, ?_, left, ?_, ?_⟩
  · rw [run_cons, call, buffered, Option.bind_some, run_cons, call, fed]
    rfl
  · rw [cleared.invocations_eq, invocations, payloadsOf_append, payloadsOf_reports]
    rfl
  · intro rests
    apply rests.noFrame
    rw [left]
    exact validFrame_encodeFrame 7 [] (by decide)

/-! ## The frame that is being received -/

def FramesOf (bytes : Bytes) (payloads : List Bytes) : Prop :=
  ∃ blocks : List (Found Bytes), blocks.map Found.payload = payloads ∧
    DisjointFrames frameFraming bytes blocks bytes.length

theorem FramesOf.none (bytes : Bytes) : FramesOf bytes [] :=
  ⟨[], rfl, List.Pairwise.nil, by simp, by simp⟩

end StreamProcessor

end Libcomm
