import Libcomm.StreamRefinement

/-!
# Termination of the extraction loop

A pass that goes round again shortens the buffered bytes, with one exception: on
a 32-bit target the length field `0xFFFFFFF4` makes the announced total wrap to
zero, and the fallback that drops as many bytes as announced drops none.
-/

set_option autoImplicit false

namespace Libcomm

open FrameScan WhileLoop

namespace StreamProcessor

/-- The front from which a pass drops nothing and goes round again. -/
structure Stalls (sizeType : SizeType) (bytes : Bytes) : Prop where
  width : sizeType = .bits32
  minimum : kMinimumFrameSize ≤ bytes.length
  lengthField : loadUInt32 bytes 4 = 0xFFFFFFF4
  noVersion : NoVersionBefore bytes bytes.length

theorem announcedTotal_eq_zero_iff (sizeType : SizeType) (bytes : Bytes) :
    announcedTotal sizeType bytes = 0 ↔
      sizeType = .bits32 ∧ loadUInt32 bytes 4 = 0xFFFFFFF4 := by
  have bound := (loadUInt32 bytes 4).toNat_lt
  have field : loadUInt32 bytes 4 = 0xFFFFFFF4 ↔ (loadUInt32 bytes 4).toNat = 0xFFFFFFF4 :=
    UInt32.toNat_inj.symm
  simp only [announcedTotal, expectedTotalSizeBytes, SizeType.add, Nat.mod_add_mod, field,
    kHeaderSize, kCrcSize]
  cases sizeType with
  | bits32 =>
      simp only [SizeType.modulus, true_and]
      omega
  | bits64 =>
      simp only [SizeType.modulus, reduceCtorEq, false_and, iff_false]
      omega

/-- **Progress**: a further pass shortens the buffered bytes unless it stalls. -/
theorem extractPass_progress {callbacks : Callbacks} (quiet : callbacks.Quiet)
    (sizeType : SizeType) {processor : StreamProcessor} (inRange : processor.InRange)
    {extractedAny : Bool} {next : StreamProcessor × Bool}
    (continues : extractPass sizeType callbacks (processor, extractedAny) = .again next)
    (moving : ¬ Stalls sizeType processor.live) :
    next.1.InRange ∧ next.1.size < processor.size := by
  have length := live_length inRange
  have outcome := extractPass_outcome quiet sizeType processor inRange extractedAny
  rw [continues] at outcome
  have shorter {events : List Invocation} {count : Nat} {after : StreamProcessor}
      (positive : 1 ≤ count) (inside : count ≤ processor.live.length)
      (moved : processor.Moved events (processor.live.drop count) after) :
      after.InRange ∧ after.size < processor.size := by
    have size := moved.size_eq
    rw [List.length_drop] at size
    simp only [InRange] at inRange ⊢
    omega
  cases outcome with
  | resynced _ positive inside _ _ _ moved => exact shorter positive (by omega) moved
  | delivered valid moved =>
      exact shorter (Nat.le_trans (by decide) (frameSize_ge _)) valid.complete moved
  | discarded rejected noVersion _ moved =>
      refine shorter ?_ rejected.inside moved
      by_contra none
      obtain ⟨width, field⟩ := (announcedTotal_eq_zero_iff sizeType processor.live).mp (by omega)
      exact moving ⟨width, rejected.minimum, field, noVersion⟩

theorem extractPass_stalls {callbacks : Callbacks} (quiet : callbacks.Quiet)
    (sizeType : SizeType) {processor : StreamProcessor} (inRange : processor.InRange)
    (extractedAny : Bool) (stalls : Stalls sizeType processor.live) :
    ∃ next, extractPass sizeType callbacks (processor, extractedAny) = .again next ∧
      next.1.InRange ∧ next.1.size = processor.size ∧ next.1.live = processor.live := by
  have length := live_length inRange
  have total : announcedTotal sizeType processor.live = 0 :=
    (announcedTotal_eq_zero_iff sizeType processor.live).mpr ⟨stalls.width, stalls.lengthField⟩
  have minimum := stalls.minimum
  have outcome := extractPass_outcome quiet sizeType processor inRange extractedAny
  generalize extractPass sizeType callbacks (processor, extractedAny) = pass at outcome
  cases outcome with
  | waits incomplete =>
      simp only [Incomplete, total, kHeaderSize, kMinimumFrameSize, kCrcSize] at incomplete minimum
      omega
  | resynced _ positive inside version _ _ _ =>
      exact absurd version (stalls.noVersion _ positive inside)
  | cleared oversize _ _ _ =>
      have exceeds := oversize.2
      rw [total] at exceeds
      omega
  | delivered valid _ =>
      have small := valid.size_le
      rw [announcedSize, stalls.lengthField] at small
      exact absurd small (by decide)
  | @discarded after _ _ _ moved =>
      have afterInRange := moved.inRange inRange
      rw [total, List.drop_zero] at moved
      exact ⟨(after, extractedAny), rfl, afterInRange, by rw [moved.size_eq, length],
        moved.live_eq⟩

theorem run_stalled {callbacks : Callbacks} (quiet : callbacks.Quiet)
    (sizeType : SizeType) {processor : StreamProcessor} (inRange : processor.InRange)
    (extractedAny : Bool) (stalls : Stalls sizeType processor.live) (fuel : Nat) :
    WhileLoop.run (extractPass sizeType callbacks) fuel (processor, extractedAny) = none := by
  refine run_diverges (fun state => state.1.InRange ∧ Stalls sizeType state.1.live) ?_ fuel
    ⟨inRange, stalls⟩
  rintro ⟨current, any⟩ ⟨currentInRange, currentStalls⟩
  obtain ⟨next, continues, nextInRange, _, nextLive⟩ :=
    extractPass_stalls quiet sizeType currentInRange any currentStalls
  exact ⟨next, continues, nextInRange, nextLive ▸ currentStalls⟩

/-! ## The whole loop -/

def NeverStalls (sizeType : SizeType) (callbacks : Callbacks) (processor : StreamProcessor)
    (extractedAny : Bool) : Prop :=
  ∀ state, Reaches (extractPass sizeType callbacks) (processor, extractedAny) state →
    ¬ Stalls sizeType state.1.live

theorem reaches_inRange {callbacks : Callbacks} (quiet : callbacks.Quiet)
    (sizeType : SizeType) {start state : StreamProcessor × Bool} (inRange : start.1.InRange)
    (reached : Reaches (extractPass sizeType callbacks) start state) : state.1.InRange := by
  induction reached with
  | refl => exact inRange
  | @tail middle next _ continues ih =>
      by_cases stalls : Stalls sizeType middle.1.live
      · obtain ⟨after, again, afterInRange, _⟩ :=
          extractPass_stalls quiet sizeType ih middle.2 stalls
        cases continues.symm.trans again
        exact afterInRange
      · exact (extractPass_progress quiet sizeType ih continues stalls).1

/-- Without a stall the fuel of `extractFrames` is enough. -/
theorem run_of_neverStalls {callbacks : Callbacks} (quiet : callbacks.Quiet)
    (sizeType : SizeType) {processor : StreamProcessor} (inRange : processor.InRange)
    (extractedAny : Bool) (moving : NeverStalls sizeType callbacks processor extractedAny) :
    ∃ final, WhileLoop.run (extractPass sizeType callbacks) (processor.size + 1)
      (processor, extractedAny) = some final := by
  refine run_variant
    (fun state => Reaches (extractPass sizeType callbacks) (processor, extractedAny) state)
    (fun state => state.1.size) ?_ Relation.ReflTransGen.refl (Nat.lt_succ_self _)
  intro state next reached continues
  have stateInRange := reaches_inRange quiet sizeType inRange reached
  exact ⟨reached.tail continues,
    (extractPass_progress quiet sizeType stateInRange continues (moving state reached)).2⟩

theorem neverStalls_bits64 (callbacks : Callbacks) (processor : StreamProcessor)
    (extractedAny : Bool) : NeverStalls .bits64 callbacks processor extractedAny := by
  intro state _ stalls
  exact absurd stalls.width (by decide)

theorem extractFrames_eq_none_iff {callbacks : Callbacks} (quiet : callbacks.Quiet)
    (sizeType : SizeType) {processor : StreamProcessor} (inRange : processor.InRange) :
    processor.extractFrames sizeType callbacks = none ↔
      ¬ Terminates (extractPass sizeType callbacks) (processor, false) := by
  constructor
  · intro gaveUp ends
    have moving : NeverStalls sizeType callbacks processor false := by
      intro state reached stalls
      exact not_terminates
        (run_stalled quiet sizeType (reaches_inRange quiet sizeType inRange reached) state.2 stalls)
        (terminates_of_reaches reached ends)
    obtain ⟨final, result⟩ := run_of_neverStalls quiet sizeType inRange false moving
    rw [extractFrames, result] at gaveUp
    exact absurd gaveUp (by simp)
  · intro endless
    cases result : processor.extractFrames sizeType callbacks with
    | none => rfl
    | some final => exact absurd ⟨_, _, result⟩ endless

/-- **Exactly when the loop ends** with every further pass shortening the
buffered bytes: on a 64-bit target always, on a 32-bit target when none of its
passes starts at a length field of `0xFFFFFFF4` with no version byte behind. -/
theorem extractFrames_loop_ends_iff {callbacks : Callbacks} (quiet : callbacks.Quiet)
    (sizeType : SizeType) (processor : StreamProcessor) (inRange : processor.InRange) :
    (Terminates (extractPass sizeType callbacks) (processor, false) ∧
      ∀ state next, Reaches (extractPass sizeType callbacks) (processor, false) state →
        extractPass sizeType callbacks state = .again next → next.1.size < state.1.size) ↔
    ∀ state, Reaches (extractPass sizeType callbacks) (processor, false) state →
      ¬ Stalls sizeType state.1.live := by
  constructor
  · rintro ⟨_, shortens⟩ state reached stalls
    have stateInRange := reaches_inRange quiet sizeType inRange reached
    obtain ⟨next, continues, _, same, _⟩ :=
      extractPass_stalls quiet sizeType stateInRange state.2 stalls
    have less := shortens state next reached continues
    omega
  · intro moving
    obtain ⟨final, result⟩ := run_of_neverStalls quiet sizeType inRange false moving
    refine ⟨⟨_, final, result⟩, ?_⟩
    intro state next reached continues
    have stateInRange := reaches_inRange quiet sizeType inRange reached
    exact (extractPass_progress quiet sizeType stateInRange continues (moving state reached)).2

/-! ### A buffer on which the loop spins -/

def silentCallbacks : Callbacks := ⟨true, false, fun _ => false⟩

theorem silentCallbacks_quiet : silentCallbacks.Quiet := fun _ => rfl

/-- Twelve bytes: a header that announces `0xFFFFFFF4` payload bytes, and zeros. -/
def wrappingHeader : Bytes := [0, 0, 0, 0, 0xF4, 0xFF, 0xFF, 0xFF, 0, 0, 0, 0]

def spinningProcessor : StreamProcessor :=
  ⟨FrameBuffer.zeros.copyIn 0 wrappingHeader, 12, [], wrappingHeader⟩

theorem spinningProcessor_inRange : spinningProcessor.InRange := by
  unfold InRange
  decide

theorem spinningProcessor_stalls : Stalls .bits32 spinningProcessor.live := by
  have live : spinningProcessor.live = wrappingHeader :=
    live_copyIn (empty .zeros) wrappingHeader (by decide)
  have noVersion : ∀ position < wrappingHeader.length,
      wrappingHeader.getD position 0 ≠ kProtocolVersion := by decide
  rw [live]
  exact ⟨rfl, by decide, by decide, fun position _ inside => noVersion position inside⟩

theorem extractFrames_loop_spins_bits32 :
    silentCallbacks.Quiet ∧ spinningProcessor.InRange ∧
      ¬ Terminates (extractPass .bits32 silentCallbacks) (spinningProcessor, false) :=
  ⟨silentCallbacks_quiet, spinningProcessor_inRange,
    not_terminates (run_stalled silentCallbacks_quiet .bits32 spinningProcessor_inRange false
      spinningProcessor_stalls)⟩

theorem extractFrames_loop_ends_bits64 :
    Terminates (extractPass .bits64 silentCallbacks) (spinningProcessor, false) :=
  ((extractFrames_loop_ends_iff silentCallbacks_quiet .bits64 spinningProcessor
    spinningProcessor_inRange).mpr
      (neverStalls_bits64 silentCallbacks spinningProcessor false)).1

end StreamProcessor

end Libcomm
