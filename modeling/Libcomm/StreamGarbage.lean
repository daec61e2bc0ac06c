import Libcomm.StreamOverflow

/-!
# A frame behind garbage

The loop of `extractFrames` reads the length field before anything has looked at
the version byte.  In front of a frame stands garbage without a version byte: the
frame is found at once, unless the four bytes at the place of the length field
announce more than was fed and no more than the buffer holds.
-/

set_option autoImplicit false

namespace Libcomm

open FrameScan WhileLoop

namespace StreamProcessor

theorem run_single_frame {callbacks : Callbacks} (quiet : callbacks.Quiet) (sizeType : SizeType)
    {processor : StreamProcessor} (inRange : processor.InRange) {packet : Packet}
    (small : packet.2.length ≤ kMaxFrameSize) (whole : processor.live = encodePacket packet)
    (extractedAny : Bool) (fuel : Nat) :
    ∃ final, WhileLoop.run (extractPass sizeType callbacks) (fuel + 2)
        (processor, extractedAny) = some final ∧
      final.1.invocations = processor.invocations ++ [.frame packet.2] ∧ final.1.size = 0 := by
  obtain ⟨valid, size, payload⟩ := validFrame_encodePacket_append packet [] small
  rw [List.append_nil, ← whole] at valid size payload
  obtain ⟨next, continues, moved⟩ :=
    extractPass_of_valid quiet sizeType inRange extractedAny valid
  have none : next.size = 0 := by
    rw [moved.size_eq, size, whole, List.drop_length]
    rfl
  have leaves := extractPass_of_incomplete quiet sizeType (moved.inRange inRange) true
    (incomplete_of_no_bytes sizeType none)
  refine ⟨(next, true), ?_, payload ▸ moved.invocations_eq, none⟩
  rw [run_again continues, run_exit leaves]

/-- What a pass makes of a frame behind garbage: it waits, or it drops exactly the
garbage. -/
theorem extractPass_of_garbage {callbacks : Callbacks} (quiet : callbacks.Quiet)
    (sizeType : SizeType) {processor : StreamProcessor} (inRange : processor.InRange)
    (extractedAny : Bool) {garbage : Bytes} {packet : Packet} (nonEmpty : garbage ≠ [])
    (noVersion : kProtocolVersion ∉ garbage) (small : packet.2.length ≤ kMaxFrameSize)
    (whole : processor.live = garbage ++ encodePacket packet)
    (announces : ¬ Incomplete sizeType processor.live) :
    ∃ next errors, extractPass sizeType callbacks (processor, extractedAny) =
        .again (next, extractedAny) ∧
      processor.Moved (callbacks.reports errors) (encodePacket packet) next := by
  have positive : 1 ≤ garbage.length := List.length_pos_iff.mpr nonEmpty
  have behind : processor.live.drop garbage.length = encodePacket packet := by
    rw [whole, List.drop_left]
  have found : ¬ Dead frameFraming (processor.live.drop garbage.length) := by
    intro dead
    have valid := (validFrame_encodePacket_append packet [] small).1
    have missed := dead []
    rw [behind] at missed
    exact absurd ((recogniseFrame_eq_some_iff _ _ _).mpr ⟨valid, rfl, rfl⟩)
      (by rw [show recogniseFrame _ = none from missed]; simp)
  have inGarbage {position : Nat} (inside : position < garbage.length) :
      processor.live.getD position 0 ≠ kProtocolVersion := by
    intro version
    rw [whole, List.getD_append _ _ _ _ inside, List.getD_eq_getElem _ _ inside] at version
    exact noVersion (version ▸ List.getElem_mem inside)
  have atFrame : processor.live.getD garbage.length 0 = kProtocolVersion := by
    rw [whole, List.getD_append_right _ _ _ _ (Nat.le_refl _), Nat.sub_self]
    rfl
  have inside : garbage.length < processor.live.length := by
    rw [whole, List.length_append, encodePacket, encodeFrame_length]
    exact Nat.lt_add_of_pos_right (Nat.lt_of_lt_of_le (by decide : 0 < kCrcSize)
      (Nat.le_add_left _ _))
  have outcome := extractPass_outcome quiet sizeType processor inRange extractedAny
  generalize extractPass sizeType callbacks (processor, extractedAny) = pass at outcome
  cases outcome with
  | waits incomplete => exact absurd incomplete announces
  | @resynced after errors count _ _ _ version _ skippable moved =>
      have notBefore : ¬ count < garbage.length := fun early => inGarbage early version
      have notBehind : ¬ garbage.length < count := fun late => found (skippable _ late)
      rw [show count = garbage.length by omega, behind] at moved
      exact ⟨after, errors, rfl, moved⟩
  | cleared _ _ skippable _ => exact absurd (skippable _ inside) found
  | delivered valid _ => exact absurd valid.version (inGarbage positive)
  | discarded _ none _ _ => exact absurd atFrame (none _ positive inside)

theorem incomplete_iff_of_minimum (sizeType : SizeType) {bytes : Bytes}
    (minimum : kMinimumFrameSize ≤ bytes.length) :
    Incomplete sizeType bytes ↔
      announcedTotal sizeType bytes ≤ kBufferCapacity ∧
        bytes.length < announcedTotal sizeType bytes := by
  have order : kHeaderSize ≤ kMinimumFrameSize := by decide
  constructor
  · intro incomplete
    rcases incomplete with short | ⟨fits, short | short⟩
    · omega
    · omega
    · exact ⟨fits, short⟩
  · intro announced
    obtain ⟨fits, short⟩ := announced
    exact Or.inr ⟨fits, Or.inr short⟩

section Feed
variable {callbacks : Callbacks} {sizeType : SizeType} {processor : StreamProcessor}
variable {packet : Packet}

theorem feed_single_frame (quiet : callbacks.Quiet) (registered : callbacks.frameRegistered = true)
    (none : processor.size = 0) (small : packet.2.length ≤ kMaxFrameSize) :
    ∃ after, processor.feed sizeType callbacks (some (encodePacket packet)) = some after ∧
      after.invocations = processor.invocations ++ [.frame packet.2] ∧ after.size = 0 := by
  have length : (encodePacket packet).length = kHeaderSize + packet.2.length + kCrcSize :=
    encodeFrame_length _ _
  have fits : (encodePacket packet).length ≤ kBufferCapacity := by
    rw [length, kBufferCapacity]
    omega
  have nonEmpty : encodePacket packet ≠ [] := by
    apply List.ne_nil_of_length_pos
    rw [length]
    exact Nat.lt_of_lt_of_le (by decide : 0 < kCrcSize) (Nat.le_add_left _ _)
  obtain ⟨start, live⟩ := withChunk_of_empty none fits
  obtain ⟨fuel, enough⟩ : ∃ fuel, (processor.withChunk (encodePacket packet)).size = fuel + 1 := by
    refine ⟨(encodePacket packet).length - 1, ?_⟩
    rw [← live_length start, live]
    have := List.length_pos_iff.mpr nonEmpty
    omega
  obtain ⟨final, result, invocations, drained⟩ :=
    run_single_frame quiet sizeType start small live false fuel
  refine ⟨final.1, ?_, invocations, drained⟩
  rw [feed_fits sizeType registered nonEmpty start, extractFrames, enough, result]
  rfl

/-- Behind garbage that does not announce too much, it is delivered as well. -/
theorem feed_garbage (quiet : callbacks.Quiet) (registered : callbacks.frameRegistered = true)
    (none : processor.size = 0) (small : packet.2.length ≤ kMaxFrameSize) {garbage : Bytes}
    (nonEmpty : garbage ≠ []) (noVersion : kProtocolVersion ∉ garbage)
    (fits : (garbage ++ encodePacket packet).length ≤ kBufferCapacity)
    (announces : ¬ Incomplete sizeType (garbage ++ encodePacket packet)) :
    ∃ after errors, processor.feed sizeType callbacks (some (garbage ++ encodePacket packet)) =
        some after ∧
      after.invocations =
        processor.invocations ++ (callbacks.reports errors ++ [.frame packet.2]) ∧
      after.size = 0 := by
  obtain ⟨start, live⟩ := withChunk_of_empty none fits
  obtain ⟨next, errors, continues, moved⟩ := extractPass_of_garbage quiet sizeType start false
    nonEmpty noVersion small live (live.symm ▸ announces)
  have length := live_length start
  rw [live, List.length_append] at length
  have nextInRange : next.InRange := by
    rw [InRange, moved.size_eq]
    rw [List.length_append] at fits
    omega
  obtain ⟨fuel, enough⟩ :
      ∃ fuel, (processor.withChunk (garbage ++ encodePacket packet)).size = fuel + 2 := by
    have frameLength : (encodePacket packet).length = kHeaderSize + packet.2.length + kCrcSize :=
      encodeFrame_length _ _
    have minimum : kCrcSize = 4 := rfl
    exact ⟨garbage.length + (encodePacket packet).length - 2, by omega⟩
  obtain ⟨final, result, invocations, drained⟩ :=
    run_single_frame quiet sizeType nextInRange small moved.live_eq false fuel
  refine ⟨final.1, errors, ?_, ?_, drained⟩
  · rw [feed_fits sizeType registered (List.append_ne_nil_of_left_ne_nil nonEmpty _) start,
      extractFrames, run_again continues, enough, result]
    rfl
  · rw [invocations, moved.invocations_eq, List.append_assoc]
    rfl

end Feed

/-- **Exactly when garbage does not delay a frame.**  An empty processor is fed
garbage without a version byte and a frame, in one call. -/
theorem garbage_is_skipped_iff {callbacks : Callbacks} (quiet : callbacks.Quiet)
    (registered : callbacks.frameRegistered = true) (sizeType : SizeType)
    (processor : StreamProcessor) (empty : processor.getBufferUsage = 0) (garbage : Bytes)
    (noVersion : kProtocolVersion ∉ garbage) (sequenceNumber : UInt16) (payload frame : Bytes)
    (built : IsBuilt sequenceNumber payload frame)
    (fits : garbage.length + kHeaderSize + payload.length + kCrcSize ≤ kBufferCapacity) :
    (∃ after events, processor.feed sizeType callbacks (some (garbage ++ frame)) = some after ∧
      after.invocations = processor.invocations ++ events ∧ payloadsOf events = [payload] ∧
      after.getBufferUsage = 0) ↔
    garbage = [] ∨ kBufferCapacity < announcedTotal sizeType (garbage ++ frame) ∨
      announcedTotal sizeType (garbage ++ frame) ≤ (garbage ++ frame).length := by
  have small : payload.length ≤ kMaxFrameSize := by
    simp only [kBufferCapacity] at fits
    omega
  obtain rfl : frame = encodePacket (sequenceNumber, payload) :=
    (isBuilt_iff sequenceNumber payload frame small).mp built
  set whole := garbage ++ encodePacket (sequenceNumber, payload) with wholeDef
  have length : whole.length = garbage.length + (kHeaderSize + payload.length + kCrcSize) := by
    rw [wholeDef, List.length_append, encodePacket, encodeFrame_length]
  have minimum : kMinimumFrameSize ≤ whole.length := by
    rw [length, kMinimumFrameSize]
    omega
  have room : whole.length ≤ kBufferCapacity := by omega
  by_cases nothing : garbage = []
  · obtain ⟨after, fed, invocations, drained⟩ :=
      @feed_single_frame callbacks sizeType processor (sequenceNumber, payload) quiet registered
        empty small
    rw [wholeDef, nothing, List.nil_append]
    exact iff_of_true ⟨after, _, fed, invocations, rfl, drained⟩ (Or.inl rfl)
  by_cases incomplete : Incomplete sizeType whole
  · have nonEmpty : whole ≠ [] := List.append_ne_nil_of_left_ne_nil nothing _
    obtain ⟨after, fed, inRange, live, _⟩ :=
      feed_buffers quiet registered sizeType empty nonEmpty room incomplete
    obtain ⟨announced, short⟩ := (incomplete_iff_of_minimum sizeType minimum).mp incomplete
    refine iff_of_false ?_ (not_or.mpr ⟨nothing, by omega⟩)
    intro delivered
    obtain ⟨other, _, otherFed, _, _, drained⟩ := delivered
    cases fed.symm.trans otherFed
    have kept : whole.length = after.getBufferUsage := by
      rw [← live]
      exact live_length inRange
    rw [drained] at kept
    exact nonEmpty (List.length_eq_zero_iff.mp kept)
  · obtain ⟨after, errors, fed, invocations, drained⟩ :=
      feed_garbage quiet registered empty small nothing noVersion room incomplete
    rw [incomplete_iff_of_minimum sizeType minimum] at incomplete
    refine iff_of_true ⟨after, _, fed, invocations, ?_, drained⟩ (Or.inr (by omega))
    rw [payloadsOf_append, payloadsOf_reports]
    rfl

theorem garbage_is_skipped_iff_four_bytes :
    (∃ after events, (empty .zeros).feed .bits32 listeningCallbacks
        (some ([0xFF, 0xAA, 0xBB, 0xCC] ++ encodeFrame 7 [])) = some after ∧
      after.invocations = (empty .zeros).invocations ++ events ∧ payloadsOf events = [[]] ∧
      after.getBufferUsage = 0) ↔
    [0xFF, 0xAA, 0xBB, 0xCC] = ([] : Bytes) ∨
      kBufferCapacity <
        announcedTotal .bits32 ([0xFF, 0xAA, 0xBB, 0xCC] ++ encodeFrame 7 []) ∨
      announcedTotal .bits32 ([0xFF, 0xAA, 0xBB, 0xCC] ++ encodeFrame 7 []) ≤
        ([0xFF, 0xAA, 0xBB, 0xCC] ++ encodeFrame 7 []).length :=
  garbage_is_skipped_iff listeningCallbacks_quiet rfl .bits32 (empty .zeros) rfl
    [0xFF, 0xAA, 0xBB, 0xCC] (by decide) 7 [] (encodeFrame 7 [])
    ((isBuilt_iff 7 [] _ (by decide)).mpr rfl) (by decide)

/-- Eight bytes of garbage whose last four announce a thousand bytes. -/
def announcingGarbage : Bytes := [0, 0, 0, 0, 0xE8, 0x03, 0, 0]

theorem garbage_delays_frame :
    kProtocolVersion ∉ announcingGarbage ∧
    ∃ after, (empty .zeros).feed .bits64 listeningCallbacks
        (some (announcingGarbage ++ encodeFrame 7 [])) = some after ∧
      payloadsOf after.invocations = [] ∧ after.getBufferUsage = 20 := by
  obtain ⟨after, fed, inRange, live, invocations⟩ :=
    @feed_buffers listeningCallbacks listeningCallbacks_quiet rfl .bits64 (empty .zeros) rfl
      (announcingGarbage ++ encodeFrame 7 []) (by decide) (by decide)
      (Or.inr ⟨by decide, Or.inr (by decide)⟩)
  refine ⟨by decide, after, fed, by rw [invocations]; rfl, ?_⟩
  rw [getBufferUsage, ← live_length inRange, live]
  rfl

end StreamProcessor

end Libcomm
