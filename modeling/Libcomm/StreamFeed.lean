import Libcomm.StreamTermination

/-!
# What a call of `feed` does to the buffered bytes

`run_extracted` sums up the passes of one extraction, and `feed_outcome` the
exits of `feed` on a 64-bit target, from any processor whose size counter is in
range.  Both are stated over the buffered bytes and the callback invocations.
-/

set_option autoImplicit false

namespace Libcomm

open FrameScan WhileLoop

/-! ## Invocations -/

def Invocation.payload? : Invocation → Option Bytes
  | .frame payload => some payload
  | .error _ _ => none

def payloadsOf (invocations : List Invocation) : List Bytes :=
  invocations.filterMap Invocation.payload?

def NoErrors (invocations : List Invocation) : Prop :=
  ∀ type message, Invocation.error type message ∉ invocations

@[simp] theorem payloadsOf_append (front back : List Invocation) :
    payloadsOf (front ++ back) = payloadsOf front ++ payloadsOf back :=
  List.filterMap_append

@[simp] theorem payloadsOf_frame (payload : Bytes) :
    payloadsOf [.frame payload] = [payload] := rfl

@[simp] theorem payloadsOf_reports (callbacks : Callbacks) (errors : List (ErrorType × String)) :
    payloadsOf (callbacks.reports errors) = [] := by
  unfold payloadsOf Callbacks.reports
  split
  · rw [List.filterMap_eq_nil_iff]
    intro invocation member
    obtain ⟨error, _, rfl⟩ := List.mem_map.mp member
    rfl
  · rfl

theorem NoErrors.append {front back : List Invocation} (none : NoErrors (front ++ back)) :
    NoErrors front ∧ NoErrors back :=
  ⟨fun type message member => none type message (List.mem_append_left _ member),
    fun type message member => none type message (List.mem_append_right _ member)⟩

theorem not_noErrors_reports {callbacks : Callbacks} (registered : callbacks.errorRegistered = true)
    (error : ErrorType × String) (errors : List (ErrorType × String)) :
    ¬ NoErrors (callbacks.reports (error :: errors)) := by
  intro none
  apply none error.1.toInt error.2
  simp [Callbacks.reports, registered]

theorem invocations_eq_frames {invocations : List Invocation} (none : NoErrors invocations) :
    invocations = (payloadsOf invocations).map Invocation.frame := by
  induction invocations with
  | nil => rfl
  | cons invocation rest ih =>
      have tail : NoErrors rest := fun type message member =>
        none type message (List.mem_cons_of_mem _ member)
      cases invocation with
      | frame payload =>
          rw [show payloadsOf (.frame payload :: rest) = payload :: payloadsOf rest from rfl,
            List.map_cons, ← ih tail]
      | error type message => exact absurd (List.mem_cons_self ..) (none type message)

namespace StreamProcessor

/-! ## One extraction -/

/-- From one processor to a later one, frames were delivered from the buffered
bytes and bytes dropped; without an error report nothing was dropped. -/
structure Extracted (callbacks : Callbacks) (before after : StreamProcessor) : Prop where
  inRange : after.InRange
  appended_eq : after.appended = before.appended
  history : ∃ events, after.invocations = before.invocations ++ events ∧
    Advance frameFraming (Skippable frameFraming) before.live (payloadsOf events) after.live ∧
    (callbacks.errorRegistered = true → NoErrors events →
      Advance frameFraming (fun _ _ => False) before.live (payloadsOf events) after.live)

namespace Extracted

theorem refl (callbacks : Callbacks) {processor : StreamProcessor} (inRange : processor.InRange) :
    Extracted callbacks processor processor :=
  ⟨inRange, rfl, [], by simp, .done _, fun _ _ => .done _⟩

theorem trans {callbacks : Callbacks} {first second third : StreamProcessor}
    (before : Extracted callbacks first second) (after : Extracted callbacks second third) :
    Extracted callbacks first third := by
  obtain ⟨_, appended, events, invocations, moved, exact⟩ := before
  obtain ⟨inRange, laterAppended, laterEvents, laterInvocations, laterMoved, laterExact⟩ := after
  refine ⟨inRange, laterAppended.trans appended, events ++ laterEvents, ?_, ?_, ?_⟩
  · rw [laterInvocations, invocations, List.append_assoc]
  · rw [payloadsOf_append]
    exact moved.trans laterMoved
  · intro registered none
    rw [payloadsOf_append]
    exact (exact registered none.append.1).trans (laterExact registered none.append.2)

theorem of_drop {callbacks : Callbacks} {before after : StreamProcessor} {count : Nat}
    {error : ErrorType × String} {errors : List (ErrorType × String)}
    (inRange : before.InRange) (inside : count ≤ before.live.length)
    (skippable : Skippable frameFraming before.live count)
    (moved : before.Moved (callbacks.reports (error :: errors)) (before.live.drop count) after) :
    Extracted callbacks before after := by
  refine ⟨moved.inRange inRange, moved.appended_eq, _, moved.invocations_eq, ?_, ?_⟩
  · rw [payloadsOf_reports, moved.live_eq]
    exact .drop inside skippable (.done _)
  · intro registered none
    exact absurd none (not_noErrors_reports registered error errors)

theorem of_frame {callbacks : Callbacks} {before after : StreamProcessor}
    (inRange : before.InRange) (valid : ValidFrame before.live)
    (moved : before.Moved [.frame (framePayload before.live)]
      (before.live.drop (frameSize before.live)) after) :
    Extracted callbacks before after := by
  have recognised : frameFraming.recognise before.live =
      some (frameSize before.live, framePayload before.live) :=
    (recogniseFrame_eq_some_iff _ _ _).mpr ⟨valid, rfl, rfl⟩
  refine ⟨moved.inRange inRange, moved.appended_eq, _, moved.invocations_eq, ?_, ?_⟩
  · rw [payloadsOf_frame, moved.live_eq]
    exact .emit recognised (.done _)
  · intro _ _
    rw [payloadsOf_frame, moved.live_eq]
    exact .emit recognised (.done _)

end Extracted

theorem extractPass_again {callbacks : Callbacks} (quiet : callbacks.Quiet) (sizeType : SizeType)
    {processor : StreamProcessor} (inRange : processor.InRange) {extractedAny : Bool}
    {next : StreamProcessor × Bool}
    (continues : extractPass sizeType callbacks (processor, extractedAny) = .again next) :
    Extracted callbacks processor next.1 := by
  have outcome := extractPass_outcome quiet sizeType processor inRange extractedAny
  rw [continues] at outcome
  cases outcome with
  | resynced reason _ inside _ _ skippable moved =>
      rcases reason with ⟨rfl, _⟩ | ⟨rfl, _⟩ <;>
        exact .of_drop inRange (by omega) skippable moved
  | delivered valid moved => exact .of_frame inRange valid moved
  | discarded rejected _ skippable moved =>
      exact .of_drop inRange rejected.inside skippable moved

theorem extractPass_exit {callbacks : Callbacks} (quiet : callbacks.Quiet) (sizeType : SizeType)
    {processor : StreamProcessor} (inRange : processor.InRange) {extractedAny : Bool}
    {final : StreamProcessor × Bool}
    (leaves : extractPass sizeType callbacks (processor, extractedAny) = .exit final) :
    Extracted callbacks processor final.1 ∧ Incomplete sizeType final.1.live := by
  have outcome := extractPass_outcome quiet sizeType processor inRange extractedAny
  rw [leaves] at outcome
  cases outcome with
  | waits incomplete => exact ⟨.refl callbacks inRange, incomplete⟩
  | @cleared after _ _ skippable moved =>
      have cleared : processor.Moved (callbacks.reports oversizeReport)
          (processor.live.drop processor.live.length) after := by
        rw [List.drop_length]
        exact moved
      refine ⟨.of_drop inRange (Nat.le_refl _) skippable cleared, Or.inl ?_⟩
      rw [moved.live_eq]
      decide

theorem run_extracted {callbacks : Callbacks} (quiet : callbacks.Quiet) (sizeType : SizeType)
    {processor : StreamProcessor} (inRange : processor.InRange) {extractedAny : Bool} {fuel : Nat}
    {final : StreamProcessor × Bool}
    (result : WhileLoop.run (extractPass sizeType callbacks) fuel (processor, extractedAny) =
      some final) :
    Extracted callbacks processor final.1 ∧ Incomplete sizeType final.1.live := by
  refine run_invariant (fun state => Extracted callbacks processor state.1)
    (fun state => Extracted callbacks processor state.1 ∧ Incomplete sizeType state.1.live)
    ?_ ?_ (.refl callbacks inRange) result
  · intro state next before continues
    exact before.trans (extractPass_again quiet sizeType before.inRange continues)
  · intro state last before leaves
    obtain ⟨after, incomplete⟩ := extractPass_exit quiet sizeType before.inRange leaves
    exact ⟨before.trans after, incomplete⟩

/-! ## One call of `feed` -/

def withChunk (processor : StreamProcessor) (chunk : Bytes) : StreamProcessor :=
  { processor with
    buffer := processor.buffer.copyIn processor.size chunk
    size := processor.size + chunk.length
    appended := processor.appended ++ chunk }

theorem withChunk_live {processor : StreamProcessor} {chunk : Bytes}
    (fits : processor.size + chunk.length ≤ kBufferCapacity) :
    (processor.withChunk chunk).live = processor.live ++ chunk :=
  live_copyIn processor chunk fits

theorem appendAndExtract_eq (sizeType : SizeType) (callbacks : Callbacks)
    {processor : StreamProcessor} {chunk : Bytes}
    (fits : processor.size + chunk.length ≤ kBufferCapacity) :
    processor.appendAndExtract sizeType callbacks chunk =
      ((processor.withChunk chunk).extractFrames sizeType callbacks).map Prod.fst := by
  have sum : sizeType.add processor.size chunk.length = processor.size + chunk.length :=
    sizeType.add_of_lt (Nat.lt_of_le_of_lt fits (by decide))
  simp only [appendAndExtract, withChunk, sum]

theorem spaceAvailable_eq (sizeType : SizeType) {processor : StreamProcessor}
    (inRange : processor.InRange) :
    sizeType.sub kBufferCapacity processor.size = kBufferCapacity - processor.size :=
  sizeType.sub_of_le inRange (by decide)

theorem feed_fits (sizeType : SizeType) {callbacks : Callbacks}
    (registered : callbacks.frameRegistered = true) {processor : StreamProcessor} {chunk : Bytes}
    (nonEmpty : chunk ≠ []) (fits : processor.size + chunk.length ≤ kBufferCapacity) :
    processor.feed sizeType callbacks (some chunk) =
      ((processor.withChunk chunk).extractFrames sizeType callbacks).map Prod.fst := by
  have inRange : processor.InRange := Nat.le_trans (Nat.le_add_right _ _) fits
  have positive : chunk.length ≠ 0 := fun zero => nonEmpty (List.length_eq_zero_iff.mp zero)
  have enough : ¬ chunk.length > kBufferCapacity - processor.size := by omega
  simp only [feed, positive, if_false, registered, not_true_eq_false,
    spaceAvailable_eq sizeType inRange, enough]
  exact appendAndExtract_eq sizeType callbacks fits

def overflowReport : List (ErrorType × String) :=
  (.bufferOverflow, "Insufficient buffer space") :: syncReport

inductive FeedOutcome (callbacks : Callbacks) (before : StreamProcessor) (chunk : Bytes) :
    StreamProcessor → Prop where
  | skipped (empty : chunk = []) : FeedOutcome callbacks before chunk before
  | unregistered (missing : callbacks.frameRegistered = false) :
      FeedOutcome callbacks before chunk
        (before.reported callbacks [(.invalidHeader, "Frame callback not registered")])
  | extracted {after : StreamProcessor}
      (fits : before.size + chunk.length ≤ kBufferCapacity)
      (moved : Extracted callbacks (before.withChunk chunk) after)
      (incomplete : Incomplete .bits64 after.live) : FeedOutcome callbacks before chunk after
  | refused {recovered : StreamProcessor} {count : Nat}
      (overflow : kBufferCapacity < before.size + chunk.length)
      (inside : count ≤ before.live.length)
      (moved : before.Moved (callbacks.reports overflowReport)
        (before.live.drop count) recovered)
      (tooLong : kBufferCapacity < recovered.size + chunk.length) :
      FeedOutcome callbacks before chunk recovered
  | recovered {recovered after : StreamProcessor} {count : Nat}
      (overflow : kBufferCapacity < before.size + chunk.length)
      (inside : count ≤ before.live.length)
      (cleared : before.Moved (callbacks.reports overflowReport)
        (before.live.drop count) recovered)
      (fits : recovered.size + chunk.length ≤ kBufferCapacity)
      (moved : Extracted callbacks (recovered.withChunk chunk) after)
      (incomplete : Incomplete .bits64 after.live) : FeedOutcome callbacks before chunk after

/-- The recovery drops the bytes up to the next version byte, or all of them. -/
theorem recoverSpace_cases {callbacks : Callbacks} (quiet : callbacks.Quiet)
    {processor : StreamProcessor} (inRange : processor.InRange) :
    (∃ count, 1 ≤ count ∧ count < processor.live.length ∧
      processor.live.getD count 0 = kProtocolVersion ∧ NoVersionBefore processor.live count ∧
      processor.Moved (callbacks.reports overflowReport)
        (processor.live.drop count) (processor.recoverSpace callbacks)) ∨
    (NoVersionBefore processor.live processor.live.length ∧
      processor.Moved (callbacks.reports overflowReport) []
        (processor.recoverSpace callbacks)) := by
  have length := live_length inRange
  rcases trySync_reported quiet processor inRange .bufferOverflow "Insufficient buffer space" with
    ⟨count, after, positive, inside, version, noVersion, result, moved⟩ | ⟨noVersion, result⟩
  · simp only [recoverSpace, result]
    exact Or.inl ⟨count, positive, by omega, version, noVersion, moved⟩
  · simp only [recoverSpace, result]
    exact Or.inr ⟨length ▸ noVersion, List.take_zero, rfl, rfl, rfl⟩

theorem recoverSpace_moved {callbacks : Callbacks} (quiet : callbacks.Quiet)
    {processor : StreamProcessor} (inRange : processor.InRange) :
    ∃ count, count ≤ processor.live.length ∧
      processor.Moved (callbacks.reports overflowReport)
        (processor.live.drop count) (processor.recoverSpace callbacks) := by
  rcases recoverSpace_cases quiet inRange with ⟨count, _, inside, _, _, moved⟩ | ⟨_, moved⟩
  · exact ⟨count, Nat.le_of_lt inside, moved⟩
  · refine ⟨processor.live.length, Nat.le_refl _, ?_⟩
    rw [List.drop_length]
    exact moved

theorem feed_overflows (sizeType : SizeType) {callbacks : Callbacks} (quiet : callbacks.Quiet)
    (registered : callbacks.frameRegistered = true) {processor : StreamProcessor}
    (inRange : processor.InRange) {chunk : Bytes}
    (overflow : kBufferCapacity < processor.size + chunk.length) :
    processor.feed sizeType callbacks (some chunk) =
      if (processor.recoverSpace callbacks).size + chunk.length ≤ kBufferCapacity then
        (((processor.recoverSpace callbacks).withChunk chunk).extractFrames sizeType
          callbacks).map Prod.fst
      else some (processor.recoverSpace callbacks) := by
  obtain ⟨count, _, cleared⟩ := recoverSpace_moved quiet inRange
  set recovered := processor.recoverSpace callbacks with recoveredDef
  have recoveredInRange : recovered.InRange := cleared.inRange inRange
  simp only [InRange] at inRange
  have positive : chunk.length ≠ 0 := by omega
  have tooLong : chunk.length > kBufferCapacity - processor.size := by omega
  simp only [feed, positive, if_false, registered, not_true_eq_false,
    spaceAvailable_eq sizeType inRange, if_pos tooLong, ← recoveredDef,
    spaceAvailable_eq sizeType recoveredInRange]
  by_cases fits : recovered.size + chunk.length ≤ kBufferCapacity
  · have enough : ¬ chunk.length > kBufferCapacity - recovered.size := by omega
    rw [if_pos fits, if_neg enough]
    exact appendAndExtract_eq sizeType callbacks fits
  · simp only [InRange] at recoveredInRange
    have still : chunk.length > kBufferCapacity - recovered.size := by omega
    rw [if_neg fits, if_pos still]

theorem extractFrames_bits64 {callbacks : Callbacks} (quiet : callbacks.Quiet)
    {processor : StreamProcessor} (inRange : processor.InRange) :
    ∃ after, (processor.extractFrames .bits64 callbacks).map Prod.fst = some after ∧
      Extracted callbacks processor after ∧ Incomplete .bits64 after.live := by
  obtain ⟨final, result⟩ := run_of_neverStalls quiet .bits64 inRange false
    (neverStalls_bits64 callbacks processor false)
  exact ⟨final.1, congrArg (Option.map Prod.fst) result,
    run_extracted quiet .bits64 inRange result⟩

/-- **One call of `feed`** on a 64-bit target. -/
theorem feed_outcome {callbacks : Callbacks} (quiet : callbacks.Quiet)
    {processor : StreamProcessor} (inRange : processor.InRange) (chunk : Bytes) :
    ∃ after, processor.feed .bits64 callbacks (some chunk) = some after ∧
      FeedOutcome callbacks processor chunk after := by
  by_cases empty : chunk = []
  · exact ⟨processor, by simp [feed, empty], .skipped empty⟩
  have positive : chunk.length ≠ 0 := fun zero => empty (List.length_eq_zero_iff.mp zero)
  cases registered : callbacks.frameRegistered with
  | false =>
      refine ⟨_, ?_, .unregistered registered⟩
      simp [feed, empty, registered, reportError_quiet quiet, reported]
  | true =>
      by_cases fits : processor.size + chunk.length ≤ kBufferCapacity
      · obtain ⟨after, result, moved, incomplete⟩ :=
          @extractFrames_bits64 callbacks quiet (processor.withChunk chunk) fits
        exact ⟨after, by rw [feed_fits .bits64 registered empty fits, result],
          .extracted fits moved incomplete⟩
      · obtain ⟨count, inside, cleared⟩ := recoverSpace_moved quiet inRange
        rw [feed_overflows .bits64 quiet registered inRange (Nat.lt_of_not_le fits)]
        by_cases tooLong : (processor.recoverSpace callbacks).size + chunk.length ≤ kBufferCapacity
        · rw [if_pos tooLong]
          obtain ⟨after, result, moved, incomplete⟩ :=
            @extractFrames_bits64 callbacks quiet
              ((processor.recoverSpace callbacks).withChunk chunk) tooLong
          exact ⟨after, result,
            .recovered (Nat.lt_of_not_le fits) inside cleared tooLong moved incomplete⟩
        · rw [if_neg tooLong]
          exact ⟨_, rfl,
            .refused (Nat.lt_of_not_le fits) inside cleared (Nat.lt_of_not_le tooLong)⟩

end StreamProcessor

end Libcomm
