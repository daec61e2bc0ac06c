import Libcomm.StreamDelivery

/-!
# The targets and the desktop

The total size of a frame is computed in `std::size_t`, which has 32 bits on the
targets and 64 on the desktop.  The two builds differ only where a length field
together with header and CRC exceeds 32 bits.  On every stream in which no such field
can be read, wherever a header is taken to begin, they go through the same states.
-/

set_option autoImplicit false

namespace Libcomm

open WhileLoop

/-- Wherever a header is taken to begin, the size of its frame has 32 bits. -/
def NeverWraps (bytes : Bytes) : Prop :=
  ∀ position, position + kHeaderSize ≤ bytes.length → frameSize (bytes.drop position) < 2 ^ 32

namespace NeverWraps
variable {bytes front back : Bytes}

theorem of_suffix (safe : NeverWraps bytes) (suffix : back <:+ bytes) : NeverWraps back := by
  obtain ⟨front, rfl⟩ := suffix
  intro position inside
  have whole := safe (front.length + position) (by rw [List.length_append]; omega)
  rwa [List.drop_length_add_append] at whole

theorem before (safe : NeverWraps (front ++ back)) : NeverWraps front := by
  intro position inside
  have header : kHeaderSize ≤ (front.drop position).length := by
    rw [List.length_drop]
    omega
  have whole := safe position (by rw [List.length_append]; omega)
  rwa [List.drop_append_of_le_length (by omega), frameSize_append _ _ header] at whole

end NeverWraps

namespace StreamProcessor

theorem announcedTotal_of_small (sizeType : SizeType) {bytes : Bytes}
    (small : frameSize bytes < 2 ^ 32) : announcedTotal sizeType bytes = frameSize bytes := by
  have field : frameSize bytes = kHeaderSize + (loadUInt32 bytes 4).toNat + kCrcSize := rfl
  rcases expectedTotalSizeBytes_cases sizeType (loadUInt32 bytes 4) with exact_size | ⟨_, wraps, _⟩
  · exact exact_size
  · exact absurd small (Nat.not_lt_of_le (field ▸ wraps))

theorem dropFrame_bits32 {processor : StreamProcessor} (inRange : processor.InRange)
    {expected : Nat} (inside : expected ≤ processor.size) :
    processor.dropFrame .bits32 expected = processor.dropFrame .bits64 expected := by
  have small : processor.size < 2 ^ 32 := Nat.lt_of_le_of_lt inRange (by decide)
  simp only [dropFrame, SizeType.sub_of_le _ inside small]

variable {callbacks : Callbacks} {processor : StreamProcessor}

theorem extractPass_bits32 (quiet : callbacks.Quiet) (inRange : processor.InRange)
    (safe : NeverWraps processor.live) (extractedAny : Bool) :
    extractPass .bits32 callbacks (processor, extractedAny) =
      extractPass .bits64 callbacks (processor, extractedAny) := by
  have length := live_length inRange
  rw [extractPass_live quiet .bits32 processor inRange,
    extractPass_live quiet .bits64 processor inRange]
  by_cases header : processor.live.length < kHeaderSize
  · have incomplete (sizeType : SizeType) : Incomplete sizeType processor.live := Or.inl header
    dsimp only
    rw [if_pos (incomplete .bits32), if_pos (incomplete .bits64)]
  have small : frameSize processor.live < 2 ^ 32 :=
    safe 0 (by rw [Nat.zero_add]; exact Nat.le_of_not_lt header)
  have total : announcedTotal .bits32 processor.live = announcedTotal .bits64 processor.live :=
    (announcedTotal_of_small .bits32 small).trans (announcedTotal_of_small .bits64 small).symm
  have incomplete : Incomplete .bits32 processor.live ↔ Incomplete .bits64 processor.live := by
    rw [Incomplete, Incomplete, total]
  have oversize : Oversize .bits32 processor.live ↔ Oversize .bits64 processor.live := by
    rw [Oversize, Oversize, total]
  dsimp only
  rw [total]
  by_cases waits : Incomplete .bits64 processor.live
  · rw [if_pos waits, if_pos (incomplete.mpr waits)]
  rw [if_neg waits, if_neg (fun other => waits (incomplete.mp other))]
  by_cases exceeds : Oversize .bits64 processor.live
  · rw [if_pos exceeds, if_pos (oversize.mpr exceeds)]
  rw [if_neg exceeds, if_neg (fun other => exceeds (oversize.mp other))]
  obtain ⟨_, inside, _⟩ := complete_of_neither waits exceeds
  rw [length] at inside
  by_cases accepted : ValidFrame processor.live ∧
      frameSize processor.live = announcedTotal .bits64 processor.live
  · rw [if_pos accepted, if_pos accepted]
    exact congrArg (fun next => Pass.again (next, true)) (@dropFrame_bits32
      { processor with
        invocations := processor.invocations ++ [.frame (framePayload processor.live)] }
      inRange _ inside)
  · rw [if_neg accepted, if_neg accepted]
    rcases trySync_reported quiet processor inRange .crcFailure "Frame validation failed" with
      ⟨count, after, _, _, _, _, result, _⟩ | ⟨_, result⟩
    · rw [result]
    · rw [result]
      exact congrArg (fun next => Pass.again (next, extractedAny)) (@dropFrame_bits32
        (processor.reported callbacks crcReport) inRange _ inside)

theorem extractPass_suffix (quiet : callbacks.Quiet) (sizeType : SizeType)
    (inRange : processor.InRange) {extractedAny : Bool} {next : StreamProcessor × Bool}
    (continues : extractPass sizeType callbacks (processor, extractedAny) = .again next) :
    next.1.InRange ∧ next.1.live <:+ processor.live := by
  have outcome := extractPass_outcome quiet sizeType processor inRange extractedAny
  rw [continues] at outcome
  cases outcome with
  | resynced _ _ _ _ _ _ moved =>
      exact ⟨moved.inRange inRange, moved.live_eq ▸ List.drop_suffix _ _⟩
  | delivered _ moved => exact ⟨moved.inRange inRange, moved.live_eq ▸ List.drop_suffix _ _⟩
  | discarded _ _ _ moved => exact ⟨moved.inRange inRange, moved.live_eq ▸ List.drop_suffix _ _⟩

theorem extractFrames_bits32 (quiet : callbacks.Quiet) (inRange : processor.InRange)
    (safe : NeverWraps processor.live) :
    processor.extractFrames .bits32 callbacks = processor.extractFrames .bits64 callbacks := by
  refine run_congr (fun state => state.1.InRange ∧ NeverWraps state.1.live) ?_ ?_ _ ⟨inRange, safe⟩
  · rintro ⟨state, extractedAny⟩ ⟨stateInRange, stateSafe⟩
    exact extractPass_bits32 quiet stateInRange stateSafe extractedAny
  · rintro ⟨state, extractedAny⟩ next ⟨stateInRange, stateSafe⟩ continues
    obtain ⟨nextInRange, suffix⟩ := extractPass_suffix quiet .bits64 stateInRange continues
    exact ⟨nextInRange, stateSafe.of_suffix suffix⟩

theorem appended_of_extractFrames (quiet : callbacks.Quiet) (inRange : processor.InRange)
    {after : StreamProcessor}
    (result : (processor.extractFrames .bits64 callbacks).map Prod.fst = some after) :
    after.appended = processor.appended := by
  obtain ⟨other, same, moved, _⟩ := extractFrames_bits64 quiet inRange
  rw [result] at same
  cases same
  exact moved.appended_eq

/-- Extracting behind a fed chunk is the same on both, if the stream stays safe. -/
theorem withChunk_bits32 (quiet : callbacks.Quiet) {stream chunk : Bytes}
    (fits : processor.size + chunk.length ≤ kBufferCapacity) (suffix : processor.live <:+ stream)
    (same : processor.appended = stream) {after : StreamProcessor}
    (result : ((processor.withChunk chunk).extractFrames .bits64 callbacks).map Prod.fst =
      some after)
    (safe : NeverWraps after.appended) :
    ((processor.withChunk chunk).extractFrames .bits32 callbacks).map Prod.fst = some after := by
  have inRange : (processor.withChunk chunk).InRange := fits
  have grown : after.appended = stream ++ chunk := by
    rw [appended_of_extractFrames quiet inRange result, withChunk, same]
  have buffered : NeverWraps (processor.withChunk chunk).live := by
    obtain ⟨front, split⟩ := suffix
    rw [withChunk_live fits]
    refine (grown ▸ safe).of_suffix ⟨front, ?_⟩
    rw [← List.append_assoc, split]
  rw [extractFrames_bits32 quiet inRange buffered, result]

theorem call_bits32 (quiet : callbacks.Quiet) (inRange : processor.InRange)
    (tracks : Tracks anyLoss processor) {call : StreamCall} {after : StreamProcessor}
    (called : processor.call .bits64 callbacks call = some after)
    (safe : NeverWraps after.appended) :
    processor.call .bits32 callbacks call = some after := by
  match call with
  | .reset => exact called
  | .feed none => exact called
  | .feed (some chunk) =>
      by_cases empty : chunk = []
      · subst empty
        exact called
      have positive : chunk.length ≠ 0 := fun zero => empty (List.length_eq_zero_iff.mp zero)
      cases registered : callbacks.frameRegistered with
      | false =>
          simp only [StreamProcessor.call, feed, positive, registered, Bool.false_eq_true,
            not_false_eq_true, if_true, if_false] at called ⊢
          exact called
      | true =>
          rw [StreamProcessor.call] at called ⊢
          by_cases fits : processor.size + chunk.length ≤ kBufferCapacity
          · rw [feed_fits _ registered empty fits] at called ⊢
            exact withChunk_bits32 quiet fits tracks.suffix rfl called safe
          rw [feed_overflows _ quiet registered inRange (Nat.lt_of_not_le fits)] at called ⊢
          by_cases enough : (processor.recoverSpace callbacks).size + chunk.length ≤
              kBufferCapacity
          · obtain ⟨count, _, moved⟩ := recoverSpace_moved quiet inRange
            have suffix : (processor.recoverSpace callbacks).live <:+ processor.appended :=
              (moved.live_eq ▸ List.drop_suffix _ _).trans tracks.suffix
            rw [if_pos enough] at called ⊢
            exact withChunk_bits32 quiet enough suffix moved.appended_eq called safe
          · rw [if_neg enough] at called ⊢
            exact called

theorem run_bits32 (quiet : callbacks.Quiet) (calls : List StreamCall)
    {processor : StreamProcessor} (inRange : processor.InRange)
    (tracks : Tracks anyLoss processor) :
    ∃ after, processor.run .bits64 callbacks calls = some after ∧
      (∃ fed, after.appended = processor.appended ++ fed) ∧
      (NeverWraps after.appended → processor.run .bits32 callbacks calls = some after) := by
  induction calls generalizing processor with
  | nil => exact ⟨processor, rfl, ⟨[], (List.append_nil _).symm⟩, fun _ => rfl⟩
  | cons call rest ih =>
      obtain ⟨middle, called, middleInRange, middleTracks, accepted, _, grown⟩ :=
        call_tracks quiet inRange tracks call
      obtain ⟨after, ran, ⟨fed, later⟩, agree⟩ := ih middleInRange middleTracks
      refine ⟨after, ?_, ⟨accepted.flatten ++ fed, ?_⟩, fun safe => ?_⟩
      · rw [run_cons, called]
        exact ran
      · rw [later, grown, List.append_assoc]
      · have before : NeverWraps middle.appended := NeverWraps.before (later ▸ safe)
        rw [run_cons, call_bits32 quiet inRange tracks called before]
        exact agree safe

/-- **The targets agree with the desktop.**  A run on a stream in which no length
field wraps goes through the same states with a 32-bit `std::size_t` as with a 64-bit
one. -/
theorem size_types_agree (quiet : callbacks.Quiet) (buffer : FrameBuffer)
    (calls : List StreamCall) :
    ∃ after, (empty buffer).run .bits64 callbacks calls = some after ∧
      (NeverWraps after.appended → (empty buffer).run .bits32 callbacks calls = some after) := by
  obtain ⟨after, ran, _, agree⟩ := run_bits32 quiet calls (Nat.zero_le _)
    (@Tracks.empty anyLoss buffer)
  exact ⟨after, ran, agree⟩

theorem size_types_agree_broken_frame :
    ∃ after, (empty .zeros).run .bits64 listeningCallbacks
        (feeds [[0x55, 1, 0, 7], encodeFrame 7 [0xAB]]) = some after ∧
      (NeverWraps after.appended → (empty .zeros).run .bits32 listeningCallbacks
        (feeds [[0x55, 1, 0, 7], encodeFrame 7 [0xAB]]) = some after) :=
  size_types_agree listeningCallbacks_quiet .zeros _

end StreamProcessor

end Libcomm
