import Libcomm.StreamDelivery

/-!
# The processor without its array

`ByteQueue` is what the stream processor is for, without the array it is kept in:
a queue of bytes that delivers frames from its front.  The array is shifted down
in place and never cleared, so behind the size counter it holds bytes of earlier
frames.  The processor simulates the queue call by call, and the queue has no
place for such bytes, hence they are never seen.
-/

set_option autoImplicit false

namespace Libcomm

open FrameScan WhileLoop StreamProcessor

/-! ## The queue -/

structure ByteQueue where
  bytes : Bytes
  invocations : List Invocation
  deriving DecidableEq

namespace ByteQueue

def report (callbacks : Callbacks) (errors : List (ErrorType × String)) (queue : ByteQueue) :
    ByteQueue :=
  { queue with invocations := queue.invocations ++ callbacks.reports errors }

def discard (count : Nat) (queue : ByteQueue) : ByteQueue :=
  { queue with bytes := queue.bytes.drop count }

def clear (queue : ByteQueue) : ByteQueue := { queue with bytes := [] }

def deliver (queue : ByteQueue) : ByteQueue :=
  ⟨queue.bytes.drop (frameSize queue.bytes),
    queue.invocations ++ [.frame (framePayload queue.bytes)]⟩

def nextVersion (bytes : Bytes) : Option Nat :=
  (List.range' 1 (bytes.length - 1)).find? fun position =>
    bytes.getD position 0 == kProtocolVersion

theorem nextVersion_eq_some {bytes : Bytes} {count : Nat} (positive : 1 ≤ count)
    (inside : count < bytes.length) (version : bytes.getD count 0 = kProtocolVersion)
    (noVersion : NoVersionBefore bytes count) : nextVersion bytes = some count := by
  refine List.find?_range'_eq_some.mpr ⟨beq_iff_eq.mpr version, ?_, ?_⟩
  · rw [List.mem_range'_1]
    omega
  · intro position first before
    simpa using noVersion position first before

theorem nextVersion_eq_none {bytes : Bytes} (noVersion : NoVersionBefore bytes bytes.length) :
    nextVersion bytes = none := by
  refine List.find?_range'_eq_none.mpr ?_
  intro position first before
  simpa using noVersion position first (by omega)

def pass (sizeType : SizeType) (callbacks : Callbacks) :
    ByteQueue × Bool → Pass (ByteQueue × Bool)
  | (queue, extractedAny) =>
      if Incomplete sizeType queue.bytes then .exit (queue, extractedAny)
      else if Oversize sizeType queue.bytes then
        match nextVersion queue.bytes with
        | some count => .again ((queue.report callbacks oversizeReport).discard count, extractedAny)
        | none => .exit ((queue.report callbacks oversizeReport).clear, extractedAny)
      else if ValidFrame queue.bytes ∧
          frameSize queue.bytes = announcedTotal sizeType queue.bytes then
        .again (queue.deliver, true)
      else
        let count := (nextVersion queue.bytes).getD (announcedTotal sizeType queue.bytes)
        .again ((queue.report callbacks crcReport).discard count, extractedAny)

def extract (sizeType : SizeType) (callbacks : Callbacks) (queue : ByteQueue) :
    Option ByteQueue :=
  (WhileLoop.run (pass sizeType callbacks) (queue.bytes.length + 1) (queue, false)).map Prod.fst

def append (chunk : Bytes) (queue : ByteQueue) : ByteQueue :=
  { queue with bytes := queue.bytes ++ chunk }

def recover (callbacks : Callbacks) (queue : ByteQueue) : ByteQueue :=
  match nextVersion queue.bytes with
  | some count => (queue.report callbacks overflowReport).discard count
  | none => (queue.report callbacks overflowReport).clear

def feed (sizeType : SizeType) (callbacks : Callbacks) (chunk : Bytes) (queue : ByteQueue) :
    Option ByteQueue :=
  if chunk = [] then some queue
  else if callbacks.frameRegistered = false then
    some (queue.report callbacks [(.invalidHeader, "Frame callback not registered")])
  else if queue.bytes.length + chunk.length ≤ kBufferCapacity then
    (queue.append chunk).extract sizeType callbacks
  else if (queue.recover callbacks).bytes.length + chunk.length ≤ kBufferCapacity then
    ((queue.recover callbacks).append chunk).extract sizeType callbacks
  else some (queue.recover callbacks)

def call (sizeType : SizeType) (callbacks : Callbacks) (queue : ByteQueue) :
    StreamCall → Option ByteQueue
  | .feed none => some queue
  | .feed (some chunk) => queue.feed sizeType callbacks chunk
  | .reset => some queue.clear

/-- What a run on these bytes shows: the invocations of each call, and the number
of bytes after it. -/
def observe (sizeType : SizeType) (callbacks : Callbacks) :
    Bytes → List StreamCall → Option (List (List Invocation × Nat))
  | _, [] => some []
  | bytes, next :: calls => do
      let after ← (ByteQueue.mk bytes []).call sizeType callbacks next
      let seen ← observe sizeType callbacks after.bytes calls
      return (after.invocations, after.bytes.length) :: seen

end ByteQueue

namespace StreamProcessor

/-- What a run of the processor shows. -/
def observe (sizeType : SizeType) (callbacks : Callbacks) :
    StreamProcessor → List StreamCall → Option (List (List Invocation × Nat))
  | _, [] => some []
  | processor, next :: calls => do
      let after ← processor.call sizeType callbacks next
      let seen ← observe sizeType callbacks after calls
      return (after.invocations.drop processor.invocations.length, after.getBufferUsage) :: seen

/-! ## The processor simulates the queue -/

/-- The buffered bytes are the queue, and since a point in the past the processor
has invoked the callbacks as the queue has. -/
structure Shows (past : List Invocation) (processor : StreamProcessor) (queue : ByteQueue) :
    Prop where
  inRange : processor.InRange
  live_eq : processor.live = queue.bytes
  history : processor.invocations = past ++ queue.invocations

namespace Shows

variable {past : List Invocation} {processor after : StreamProcessor} {queue : ByteQueue}

theorem refl (inRange : processor.InRange) :
    Shows processor.invocations processor ⟨processor.live, []⟩ :=
  ⟨inRange, rfl, (List.append_nil _).symm⟩

theorem size_eq (shows : Shows past processor queue) : processor.size = queue.bytes.length := by
  rw [← shows.live_eq, live_length shows.inRange]

theorem moved (shows : Shows past processor queue) {events : List Invocation} {count : Nat}
    (moved : processor.Moved events (queue.bytes.drop count) after) :
    Shows past after ⟨queue.bytes.drop count, queue.invocations ++ events⟩ := by
  have dropped : processor.Moved events (processor.live.drop count) after := by
    rw [shows.live_eq]
    exact moved
  refine ⟨dropped.inRange shows.inRange, moved.live_eq, ?_⟩
  rw [moved.invocations_eq, shows.history, List.append_assoc]

theorem invoked (shows : Shows past processor queue) (events : List Invocation) :
    Shows past { processor with invocations := processor.invocations ++ events }
      { queue with invocations := queue.invocations ++ events } := by
  refine ⟨shows.inRange, shows.live_eq, ?_⟩
  rw [shows.history, List.append_assoc]

theorem clear (shows : Shows past processor queue) :
    Shows past { processor with size := 0 } queue.clear :=
  ⟨Nat.zero_le _, List.take_zero, shows.history⟩

theorem dropFrame (shows : Shows past processor queue) (sizeType : SizeType) {expected : Nat}
    (inside : expected ≤ processor.size) :
    Shows past (processor.dropFrame sizeType expected) (queue.discard expected) := by
  have moved := dropFrame_moved sizeType expected shows.inRange inside
  rw [shows.live_eq] at moved
  simpa only [List.append_nil, ByteQueue.discard] using shows.moved moved

theorem withChunk (shows : Shows past processor queue) {chunk : Bytes}
    (fits : queue.bytes.length + chunk.length ≤ kBufferCapacity) :
    Shows past (processor.withChunk chunk) (queue.append chunk) := by
  rw [← shows.size_eq] at fits
  refine ⟨fits, ?_, shows.history⟩
  rw [withChunk_live fits, shows.live_eq]
  rfl

end Shows

section Simulation
variable {callbacks : Callbacks} {past : List Invocation} {processor : StreamProcessor}
  {queue : ByteQueue}

theorem trySync_shows (quiet : callbacks.Quiet) (shows : Shows past processor queue)
    (type : ErrorType) (message : String) :
    (∃ count after, ByteQueue.nextVersion queue.bytes = some count ∧
      (processor.reportError callbacks type message).trySync callbacks = (true, after) ∧
      Shows past after
        ((queue.report callbacks ((type, message) :: syncReport)).discard count)) ∨
    (ByteQueue.nextVersion queue.bytes = none ∧
      (processor.reportError callbacks type message).trySync callbacks =
        (false, processor.reported callbacks ((type, message) :: syncReport))) := by
  have length := shows.size_eq
  rcases trySync_reported quiet processor shows.inRange type message with
    ⟨count, after, positive, inside, version, noVersion, result, moved⟩ | ⟨noVersion, result⟩
  · rw [shows.live_eq] at version noVersion moved
    rw [length] at inside
    exact Or.inl ⟨count, after, ByteQueue.nextVersion_eq_some positive inside version noVersion,
      result, shows.moved moved⟩
  · rw [shows.live_eq, length] at noVersion
    exact Or.inr ⟨ByteQueue.nextVersion_eq_none noVersion, result⟩

/-- **One pass of the loop** is one pass of the queue. -/
theorem extractPass_shows (quiet : callbacks.Quiet) (sizeType : SizeType)
    (shows : Shows past processor queue) (extractedAny : Bool) :
    Pass.Rel (fun state other => Shows past state.1 other.1 ∧ state.2 = other.2)
      (extractPass sizeType callbacks (processor, extractedAny))
      (ByteQueue.pass sizeType callbacks (queue, extractedAny)) := by
  rw [extractPass_live quiet sizeType processor shows.inRange, shows.live_eq, ByteQueue.pass]
  dsimp only
  by_cases incomplete : Incomplete sizeType queue.bytes
  · rw [if_pos incomplete, if_pos incomplete]
    exact .exit ⟨shows, rfl⟩
  rw [if_neg incomplete, if_neg incomplete]
  by_cases oversize : Oversize sizeType queue.bytes
  · rw [if_pos oversize, if_pos oversize]
    rcases trySync_shows quiet shows .invalidFrameSize "Frame size exceeds buffer capacity" with
      ⟨count, after, found, result, later⟩ | ⟨missing, result⟩
    · rw [result, found]
      exact .again ⟨later, rfl⟩
    · rw [result, missing]
      exact .exit ⟨(shows.invoked _).clear, rfl⟩
  rw [if_neg oversize, if_neg oversize]
  obtain ⟨_, inside, _⟩ := complete_of_neither incomplete oversize
  rw [← shows.size_eq] at inside
  by_cases accepted : ValidFrame queue.bytes ∧
      frameSize queue.bytes = announcedTotal sizeType queue.bytes
  · rw [if_pos accepted, if_pos accepted, ByteQueue.deliver, accepted.2]
    exact .again ⟨(shows.invoked _).dropFrame sizeType inside, rfl⟩
  · rw [if_neg accepted, if_neg accepted]
    rcases trySync_shows quiet shows .crcFailure "Frame validation failed" with
      ⟨count, after, found, result, later⟩ | ⟨missing, result⟩
    · rw [result, found]
      exact .again ⟨later, rfl⟩
    · rw [result, missing]
      exact .again ⟨(shows.invoked (callbacks.reports crcReport)).dropFrame sizeType inside, rfl⟩

theorem extractFrames_shows (quiet : callbacks.Quiet) (sizeType : SizeType)
    (shows : Shows past processor queue) :
    Option.Rel (Shows past) ((processor.extractFrames sizeType callbacks).map Prod.fst)
      (queue.extract sizeType callbacks) := by
  have loops : Option.Rel
      (fun (state : StreamProcessor × Bool) (other : ByteQueue × Bool) =>
        Shows past state.1 other.1 ∧ state.2 = other.2)
      (processor.extractFrames sizeType callbacks)
      (WhileLoop.run (ByteQueue.pass sizeType callbacks) (queue.bytes.length + 1)
        (queue, false)) := by
    rw [extractFrames, shows.size_eq]
    refine run_related _ ?_ _ ⟨shows, rfl⟩
    rintro ⟨state, extractedAny⟩ ⟨other, _⟩ ⟨same, rfl⟩
    exact extractPass_shows quiet sizeType same extractedAny
  rw [ByteQueue.extract]
  generalize processor.extractFrames sizeType callbacks = first at loops ⊢
  generalize WhileLoop.run _ _ _ = second at loops ⊢
  cases loops with
  | none => exact .none
  | some last => exact .some last.1

theorem recoverSpace_shows (quiet : callbacks.Quiet) (shows : Shows past processor queue) :
    Shows past (processor.recoverSpace callbacks) (queue.recover callbacks) := by
  rw [recoverSpace, ByteQueue.recover]
  rcases trySync_shows quiet shows .bufferOverflow "Insufficient buffer space" with
    ⟨count, after, found, result, later⟩ | ⟨missing, result⟩
  · rw [result, found]
    exact later
  · rw [result, missing]
    exact (shows.invoked (callbacks.reports overflowReport)).clear

theorem feed_shows (quiet : callbacks.Quiet) (sizeType : SizeType)
    (shows : Shows past processor queue) (chunk : Bytes) :
    Option.Rel (Shows past) (processor.feed sizeType callbacks (some chunk))
      (queue.feed sizeType callbacks chunk) := by
  have length := shows.size_eq
  rw [ByteQueue.feed]
  by_cases empty : chunk = []
  · rw [if_pos empty, feed, if_pos (List.length_eq_zero_iff.mpr empty)]
    exact .some shows
  have positive : chunk.length ≠ 0 := fun zero => empty (List.length_eq_zero_iff.mp zero)
  rw [if_neg empty]
  cases registered : callbacks.frameRegistered with
  | false =>
      simp only [feed, positive, registered, Bool.false_eq_true, not_false_eq_true, if_true,
        if_false, reportError_quiet quiet]
      exact .some (shows.invoked _)
  | true =>
      rw [if_neg Bool.noConfusion]
      by_cases fits : queue.bytes.length + chunk.length ≤ kBufferCapacity
      · rw [if_pos fits, feed_fits sizeType registered empty (length ▸ fits)]
        exact extractFrames_shows quiet sizeType (shows.withChunk fits)
      have recovered := recoverSpace_shows quiet shows
      rw [if_neg fits, feed_overflows sizeType quiet registered shows.inRange
        (length ▸ Nat.lt_of_not_le fits), recovered.size_eq]
      by_cases enough : (queue.recover callbacks).bytes.length + chunk.length ≤ kBufferCapacity
      · rw [if_pos enough, if_pos enough]
        exact extractFrames_shows quiet sizeType (recovered.withChunk enough)
      · rw [if_neg enough, if_neg enough]
        exact .some recovered

theorem call_shows (quiet : callbacks.Quiet) (sizeType : SizeType)
    (shows : Shows past processor queue) (next : StreamCall) :
    Option.Rel (Shows past) (processor.call sizeType callbacks next)
      (queue.call sizeType callbacks next) := by
  cases next with
  | feed data =>
      cases data with
      | none => exact .some shows
      | some chunk => exact feed_shows quiet sizeType shows chunk
  | reset => exact .some shows.clear

/-! ## Whole runs -/

/-- What a run shows is decided by the bytes that are buffered at its beginning. -/
theorem observe_live (quiet : callbacks.Quiet) (sizeType : SizeType) (calls : List StreamCall)
    (inRange : processor.InRange) :
    processor.observe sizeType callbacks calls =
      ByteQueue.observe sizeType callbacks processor.live calls := by
  induction calls generalizing processor with
  | nil => rfl
  | cons next calls ih =>
      have step := call_shows quiet sizeType (Shows.refl inRange) next
      rw [observe, ByteQueue.observe]
      generalize processor.call sizeType callbacks next = called at step
      generalize (ByteQueue.mk processor.live []).call sizeType callbacks next = other at step
      cases step with
      | none => rfl
      | @some after queue shows =>
          have invoked : after.invocations.drop processor.invocations.length =
              queue.invocations := by
            rw [shows.history, List.drop_left]
          have usage : after.getBufferUsage = queue.bytes.length := shows.size_eq
          simp only [Option.bind_eq_bind, Option.bind_some, ih shows.inRange, shows.live_eq,
            invoked, usage]

end Simulation

theorem call_bits64 {callbacks : Callbacks} (quiet : callbacks.Quiet)
    {processor : StreamProcessor} (inRange : processor.InRange) (next : StreamCall) :
    ∃ after, processor.call .bits64 callbacks next = some after := by
  match next with
  | .feed none => exact ⟨_, rfl⟩
  | .feed (some chunk) =>
      obtain ⟨after, fed, _⟩ := feed_outcome quiet inRange chunk
      exact ⟨after, fed⟩
  | .reset => exact ⟨_, rfl⟩

theorem observe_bits64 {callbacks : Callbacks} (quiet : callbacks.Quiet)
    (calls : List StreamCall) {processor : StreamProcessor} (inRange : processor.InRange) :
    ∃ seen, processor.observe .bits64 callbacks calls = some seen ∧
      seen.length = calls.length := by
  induction calls generalizing processor with
  | nil => exact ⟨[], rfl, rfl⟩
  | cons next calls ih =>
      obtain ⟨after, called⟩ := call_bits64 quiet inRange next
      have step := call_shows quiet .bits64 (Shows.refl inRange) next
      rw [called] at step
      generalize (ByteQueue.mk processor.live []).call .bits64 callbacks next = other at step
      cases step with
      | some shows =>
          obtain ⟨seen, observed, length⟩ := ih shows.inRange
          refine
            ⟨(after.invocations.drop processor.invocations.length, after.getBufferUsage) :: seen,
              ?_, congrArg Nat.succ length⟩
          rw [observe, called, Option.bind_eq_bind, Option.bind_some, observed]
          rfl

/-- **Leftover bytes are never seen.**  Two processors that hold the same bytes
below their size counters make the same callback invocations in the same calls
and have the same usage after each, whatever is behind in their arrays.  Hence a
used processor after `reset()` cannot be told from a new one. -/
theorem leftovers_unseen {callbacks : Callbacks} (quiet : callbacks.Quiet)
    (first second : StreamProcessor) (inRange : first.size ≤ kBufferCapacity)
    (sameSize : first.size = second.size)
    (sameBytes : first.buffer.bytes.take first.size = second.buffer.bytes.take second.size)
    (calls : List StreamCall) :
    (∃ seen, seen.length = calls.length ∧
      first.observe .bits64 callbacks calls = some seen ∧
      second.observe .bits64 callbacks calls = some seen) ∧
    ∀ used buffer, ∃ seen, seen.length = calls.length ∧
      (reset used).observe .bits64 callbacks calls = some seen ∧
      (empty buffer).observe .bits64 callbacks calls = some seen := by
  have alike {left right : StreamProcessor} (leftInRange : left.InRange)
      (rightInRange : right.InRange) (same : left.live = right.live) :
      ∃ seen, seen.length = calls.length ∧
        left.observe .bits64 callbacks calls = some seen ∧
        right.observe .bits64 callbacks calls = some seen := by
    obtain ⟨seen, observed, length⟩ := observe_bits64 quiet calls leftInRange
    refine ⟨seen, length, observed, ?_⟩
    rw [observe_live quiet .bits64 calls rightInRange, ← same,
      ← observe_live quiet .bits64 calls leftInRange, observed]
  have secondInRange : second.InRange := by
    rw [InRange, ← sameSize]
    exact inRange
  refine ⟨alike inRange secondInRange sameBytes, ?_⟩
  intro used buffer
  exact alike (Nat.zero_le _) (Nat.zero_le _) rfl

/-- Two processors that have the first byte of a frame, and different garbage. -/
theorem leftovers_unseen_one_byte :
    ∃ seen, seen.length = 1 ∧
      (StreamProcessor.mk (FrameBuffer.zeros.copyIn 0 [1]) 1 [] []).observe .bits64
        listeningCallbacks [.feed (some [0, 7, 0])] = some seen ∧
      (StreamProcessor.mk (FrameBuffer.zeros.copyIn 0 [1, 0xA5, 0x5A]) 1 [] []).observe .bits64
        listeningCallbacks [.feed (some [0, 7, 0])] = some seen :=
  (leftovers_unseen listeningCallbacks_quiet
    (StreamProcessor.mk (FrameBuffer.zeros.copyIn 0 [1]) 1 [] [])
    (StreamProcessor.mk (FrameBuffer.zeros.copyIn 0 [1, 0xA5, 0x5A]) 1 [] [])
    (by decide) rfl (by decide) [.feed (some [0, 7, 0])]).1

end StreamProcessor

end Libcomm
