import Libcomm.StreamFeed

/-!
# What a run of the stream processor delivers

Over any run the processor is a reader of the bytes that were copied into its
buffer.  While every chunk fits it only drops bytes at which no frame can begin,
so it delivers what a greedy scan of the stream finds.  With overflows and
resets it may drop anything, but what it delivers are still frames of the
stream, one behind the other, and a call without an error report drops nothing.
-/

set_option autoImplicit false

namespace Libcomm

open FrameScan

namespace StreamProcessor

/-! ## The processor as a reader -/

/-- The history of the processor is a run of a reader with a dropping policy. -/
def Tracks (droppable : Bytes → Nat → Prop) (processor : StreamProcessor) : Prop :=
  Reads frameFraming droppable processor.appended (payloadsOf processor.invocations) processor.live

section Policy
variable {droppable : Bytes → Nat → Prop}

theorem Tracks.empty (buffer : FrameBuffer) : Tracks droppable (StreamProcessor.empty buffer) :=
  .start

theorem Tracks.withChunk {processor : StreamProcessor} {chunk : Bytes}
    (tracks : Tracks droppable processor)
    (fits : processor.size + chunk.length ≤ kBufferCapacity) :
    Tracks droppable (processor.withChunk chunk) := by
  rw [Tracks, withChunk_live fits]
  exact tracks.append chunk

theorem Tracks.extracted {callbacks : Callbacks} {before after : StreamProcessor}
    (implies : ∀ bytes count, Skippable frameFraming bytes count → droppable bytes count)
    (tracks : Tracks droppable before) (moved : Extracted callbacks before after) :
    Tracks droppable after := by
  obtain ⟨_, appended, events, invocations, advance, _⟩ := moved
  rw [Tracks, appended, invocations, payloadsOf_append]
  exact tracks.advance (advance.weaken implies)

theorem Tracks.dropped {callbacks : Callbacks} {before after : StreamProcessor}
    {errors : List (ErrorType × String)} {count : Nat} (tracks : Tracks droppable before)
    (inside : count ≤ before.live.length) (allowed : droppable before.live count)
    (moved : before.Moved (callbacks.reports errors) (before.live.drop count) after) :
    Tracks droppable after := by
  rw [Tracks, moved.appended_eq, moved.invocations_eq, moved.live_eq, payloadsOf_append,
    payloadsOf_reports]
  exact tracks.advance (.drop inside allowed (.done _))

end Policy

theorem run_cons (sizeType : SizeType) (callbacks : Callbacks) (processor : StreamProcessor)
    (call : StreamCall) (calls : List StreamCall) :
    processor.run sizeType callbacks (call :: calls) =
      (processor.call sizeType callbacks call).bind fun next =>
        next.run sizeType callbacks calls := rfl

/-! ## Chunks that fit -/

def feeds (chunks : List Bytes) : List StreamCall := chunks.map fun chunk => .feed (some chunk)

/-- Each chunk fits behind the bytes that are buffered when it is fed. -/
def FitsWhenFed (sizeType : SizeType) (callbacks : Callbacks) : StreamProcessor → List Bytes → Prop
  | _, [] => True
  | processor, chunk :: rest =>
      processor.getBufferUsage + chunk.length ≤ kBufferCapacity ∧
        ∀ next, processor.feed sizeType callbacks (some chunk) = some next →
          FitsWhenFed sizeType callbacks next rest

/-- One fitting chunk: the stream grows by it and nothing but dead bytes is lost. -/
theorem feed_fits_tracks {callbacks : Callbacks} (quiet : callbacks.Quiet)
    (registered : callbacks.frameRegistered = true) {processor : StreamProcessor} {chunk : Bytes}
    (tracks : Tracks (Skippable frameFraming) processor)
    (fits : processor.size + chunk.length ≤ kBufferCapacity) :
    ∃ after, processor.feed .bits64 callbacks (some chunk) = some after ∧ after.InRange ∧
      Tracks (Skippable frameFraming) after ∧ after.appended = processor.appended ++ chunk := by
  have inRange : processor.InRange := Nat.le_trans (Nat.le_add_right _ _) fits
  by_cases empty : chunk = []
  · subst empty
    exact ⟨processor, rfl, inRange, tracks, by simp⟩
  · obtain ⟨after, result, moved, _⟩ :=
      @extractFrames_bits64 callbacks quiet (processor.withChunk chunk) fits
    refine ⟨after, ?_, moved.inRange, ?_, moved.appended_eq⟩
    · rw [feed_fits .bits64 registered empty fits, result]
    · exact (tracks.withChunk fits).extracted (fun _ _ skippable => skippable) moved

theorem feeds_fit_track {callbacks : Callbacks} (quiet : callbacks.Quiet)
    (registered : callbacks.frameRegistered = true) (chunks : List Bytes)
    {processor : StreamProcessor} (inRange : processor.InRange)
    (tracks : Tracks (Skippable frameFraming) processor)
    (fits : FitsWhenFed .bits64 callbacks processor chunks) :
    ∃ after, processor.run .bits64 callbacks (feeds chunks) = some after ∧ after.InRange ∧
      Tracks (Skippable frameFraming) after ∧
      after.appended = processor.appended ++ chunks.flatten := by
  induction chunks generalizing processor with
  | nil => exact ⟨processor, rfl, inRange, tracks, by simp⟩
  | cons chunk rest ih =>
      obtain ⟨chunkFits, restFits⟩ := fits
      obtain ⟨middle, fed, middleInRange, middleTracks, middleAppended⟩ :=
        feed_fits_tracks quiet registered tracks chunkFits
      obtain ⟨after, ran, afterInRange, afterTracks, afterAppended⟩ :=
        ih middleInRange middleTracks (restFits middle fed)
      refine ⟨after, ?_, afterInRange, afterTracks, ?_⟩
      · change (processor.feed .bits64 callbacks (some chunk)).bind _ = some after
        rw [fed]
        exact ran
      · rw [afterAppended, middleAppended, List.flatten_cons, List.append_assoc]

/-- As long as the whole stream is no longer than the buffer, every chunk fits. -/
theorem fitsWhenFed_of_short {callbacks : Callbacks} (quiet : callbacks.Quiet)
    (registered : callbacks.frameRegistered = true) (chunks : List Bytes)
    {processor : StreamProcessor} (inRange : processor.InRange)
    (tracks : Tracks (Skippable frameFraming) processor)
    (short : processor.appended.length + chunks.flatten.length ≤ kBufferCapacity) :
    FitsWhenFed .bits64 callbacks processor chunks := by
  induction chunks generalizing processor with
  | nil => trivial
  | cons chunk rest ih =>
      have buffered := tracks.suffix.length_le
      rw [live_length inRange] at buffered
      rw [List.flatten_cons, List.length_append] at short
      have fits : processor.size + chunk.length ≤ kBufferCapacity := by omega
      refine ⟨fits, fun next fed => ?_⟩
      obtain ⟨after, result, afterInRange, afterTracks, appended⟩ :=
        feed_fits_tracks quiet registered tracks fits
      rw [result] at fed
      cases fed
      exact ih afterInRange afterTracks (by rw [appended, List.length_append]; omega)

/-- **Refinement of the greedy scan.**  Whatever the stream and however it is
cut: the payloads delivered so far begin the greedy scan of the bytes fed so far
and of every extension of them, and each frame of the scan that is not yet
delivered lies inside the bytes still buffered. -/
theorem feed_refines_greedyScan {callbacks : Callbacks} (quiet : callbacks.Quiet)
    (registered : callbacks.frameRegistered = true) (buffer : FrameBuffer) (chunks : List Bytes)
    (fits : FitsWhenFed .bits64 callbacks (empty buffer) chunks) :
    ∃ after, (empty buffer).run .bits64 callbacks (feeds chunks) = some after ∧
      after.live = chunks.flatten.drop (chunks.flatten.length - after.getBufferUsage) ∧
      (∀ extension, payloadsOf after.invocations <+:
        (greedyScan frameFraming 0 (chunks.flatten ++ extension)).map Found.payload) ∧
      ∀ found ∈ (greedyScan frameFraming 0 chunks.flatten).drop
          (payloadsOf after.invocations).length,
        chunks.flatten.length - after.getBufferUsage ≤ found.position ∧
          found.position + found.length ≤ chunks.flatten.length := by
  obtain ⟨after, ran, inRange, tracks, appended⟩ :=
    feeds_fit_track quiet registered chunks (Nat.zero_le _) (.empty buffer) fits
  have stream : after.appended = chunks.flatten := appended
  rw [Tracks, stream] at tracks
  have length : after.live.length = after.getBufferUsage := live_length inRange
  have shorter := tracks.suffix.length_le
  obtain ⟨found, payloads, scan⟩ := tracks.greedyScan_eq
  refine ⟨after, ran, ?_, ?_, ?_⟩
  · rw [← length]
    exact List.suffix_iff_eq_drop.mp tracks.suffix
  · intro extension
    rw [scan extension, List.map_append, payloads]
    exact List.prefix_append _ _
  · intro later member
    have whole := scan []
    rw [List.append_nil, List.append_nil] at whole
    rw [whole, ← payloads, List.length_map, List.drop_left] at member
    have bounds := greedyScan_bounds frameFraming _ _ later member
    rw [length] at bounds shorter
    omega

/-- A rejected byte, a frame without payload that is cut inside its length field, and a
frame with the start of another behind it. -/
def brokenStream : List Bytes :=
  [[0x55, 1, 0, 7, 0, 0], [0, 0, 0], (encodeFrame 7 []).drop kHeaderSize,
    encodeFrame 8 [0xAB] ++ [1, 0]]

theorem feed_refines_greedyScan_brokenStream :
    ∃ after, (empty .zeros).run .bits64 silentCallbacks (feeds brokenStream) = some after ∧
      payloadsOf after.invocations = [[], [0xAB]] ∧ after.live = [1, 0] ∧
      after.live = brokenStream.flatten.drop (brokenStream.flatten.length - after.getBufferUsage) ∧
      (∀ extension, [[], [0xAB]] <+:
        (greedyScan frameFraming 0 (brokenStream.flatten ++ extension)).map Found.payload) ∧
      ∀ found ∈ (greedyScan frameFraming 0 brokenStream.flatten).drop 2,
        brokenStream.flatten.length - after.getBufferUsage ≤ found.position ∧
          found.position + found.length ≤ brokenStream.flatten.length := by
  obtain ⟨after, ran, split, delivered, undelivered⟩ :=
    feed_refines_greedyScan silentCallbacks_quiet rfl .zeros brokenStream
      (fitsWhenFed_of_short silentCallbacks_quiet rfl brokenStream (Nat.zero_le _)
        (.empty .zeros) (by decide +kernel))
  have outcome : ((empty .zeros).run .bits64 silentCallbacks (feeds brokenStream)).map
      (fun after => (payloadsOf after.invocations, after.live)) =
        some ([[], [0xAB]], [1, 0]) := by
    decide +kernel
  rw [ran, Option.map_some, Option.some_inj, Prod.mk.injEq] at outcome
  obtain ⟨payloads, live⟩ := outcome
  rw [payloads] at delivered undelivered
  exact ⟨after, ran, payloads, live, split, delivered, undelivered⟩

/-! ## Any chunks and resets -/

def anyLoss (_ : Bytes) (_ : Nat) : Prop := True

def offered : StreamCall → List Bytes
  | .feed (some chunk) => [chunk]
  | .feed none => []
  | .reset => []

theorem call_tracks {callbacks : Callbacks} (quiet : callbacks.Quiet)
    {processor : StreamProcessor} (inRange : processor.InRange)
    (tracks : Tracks anyLoss processor) (call : StreamCall) :
    ∃ after, processor.call .bits64 callbacks call = some after ∧ after.InRange ∧
      Tracks anyLoss after ∧
      ∃ accepted : List Bytes, accepted.Sublist (offered call) ∧
        after.appended = processor.appended ++ accepted.flatten := by
  cases call with
  | reset =>
      have moved : processor.Moved (silentCallbacks.reports [])
          (processor.live.drop processor.live.length) processor.reset := by
        rw [List.drop_length]
        exact ⟨List.take_zero, rfl, (List.append_nil _).symm, rfl⟩
      exact ⟨processor.reset, rfl, Nat.zero_le _, tracks.dropped (Nat.le_refl _) trivial moved,
        [], List.nil_sublist _, (List.append_nil _).symm⟩
  | feed data =>
      cases data with
      | none =>
          exact ⟨processor, rfl, inRange, tracks, [], List.nil_sublist _,
            (List.append_nil _).symm⟩
      | some chunk =>
          obtain ⟨after, result, outcome⟩ := feed_outcome quiet inRange chunk
          have whole : [chunk].flatten = chunk := List.append_nil chunk
          refine ⟨after, result, ?_⟩
          cases outcome with
          | skipped _ =>
              exact ⟨inRange, tracks, [], List.nil_sublist _, (List.append_nil _).symm⟩
          | unregistered _ =>
              have moved : processor.Moved (callbacks.reports _) (processor.live.drop 0)
                  (processor.reported callbacks
                    [(.invalidHeader, "Frame callback not registered")]) :=
                ⟨rfl, (live_length inRange).symm, rfl, rfl⟩
              exact ⟨inRange, tracks.dropped (Nat.zero_le _) trivial moved, [],
                List.nil_sublist _, (List.append_nil _).symm⟩
          | extracted fits moved _ =>
              refine ⟨moved.inRange, (tracks.withChunk fits).extracted (fun _ _ _ => trivial) moved,
                [chunk], List.Sublist.refl _, ?_⟩
              rw [whole]
              exact moved.appended_eq
          | refused _ inside moved _ =>
              refine ⟨moved.inRange inRange, tracks.dropped inside trivial moved, [],
                List.nil_sublist _, ?_⟩
              rw [moved.appended_eq]
              exact (List.append_nil _).symm
          | recovered _ inside cleared fits moved _ =>
              have recovered := tracks.dropped inside trivial cleared
              refine ⟨moved.inRange,
                (recovered.withChunk fits).extracted (fun _ _ _ => trivial) moved,
                [chunk], List.Sublist.refl _, ?_⟩
              rw [whole, moved.appended_eq, StreamProcessor.withChunk, cleared.appended_eq]

theorem run_tracks {callbacks : Callbacks} (quiet : callbacks.Quiet) (calls : List StreamCall)
    {processor : StreamProcessor} (inRange : processor.InRange)
    (tracks : Tracks anyLoss processor) :
    ∃ after, processor.run .bits64 callbacks calls = some after ∧ after.InRange ∧
      Tracks anyLoss after ∧
      ∃ accepted : List Bytes, accepted.Sublist (calls.flatMap offered) ∧
        after.appended = processor.appended ++ accepted.flatten := by
  induction calls generalizing processor with
  | nil =>
      exact ⟨processor, rfl, inRange, tracks, [], List.nil_sublist _, (List.append_nil _).symm⟩
  | cons call rest ih =>
      obtain ⟨middle, called, middleInRange, middleTracks, head, headOffered, headAppended⟩ :=
        call_tracks quiet inRange tracks call
      obtain ⟨after, ran, afterInRange, afterTracks, tail, tailOffered, tailAppended⟩ :=
        ih middleInRange middleTracks
      refine ⟨after, ?_, afterInRange, afterTracks, head ++ tail,
        headOffered.append tailOffered, ?_⟩
      · rw [run_cons, called]
        exact ran
      · rw [tailAppended, headAppended, List.flatten_append, List.append_assoc]

/-- **No frame is made up, repeated or reordered** in any run: with `appended`
the chunks that were copied in, each whole or not at all, the buffered bytes are
the end of `appended`, and the payloads are those of complete valid frames in
it, one behind the other. -/
theorem run_delivers_disjoint_frames {callbacks : Callbacks} (quiet : callbacks.Quiet)
    (buffer : FrameBuffer) (calls : List StreamCall) :
    ∃ after, (empty buffer).run .bits64 callbacks calls = some after ∧
      (∃ accepted : List Bytes, accepted.Sublist (calls.flatMap offered) ∧
        after.appended = accepted.flatten) ∧
      after.size ≤ kBufferCapacity ∧ after.live.length = after.size ∧
      after.live <:+ after.appended ∧
      ∃ blocks : List (Found Bytes),
        blocks.map Found.payload = payloadsOf after.invocations ∧
        (blocks.Pairwise fun first second =>
          first.position + first.length ≤ second.position) ∧
        ∀ block ∈ blocks, block.position + block.length ≤ after.appended.length ∧
          ∃ frame, frame = (after.appended.drop block.position).take block.length ∧
            ValidFrame frame ∧ frameSize frame = frame.length ∧
            framePayload frame = block.payload := by
  obtain ⟨after, ran, inRange, tracks, accepted, sublist, appended⟩ :=
    run_tracks quiet calls (Nat.zero_le _) (@Tracks.empty anyLoss buffer)
  obtain ⟨blocks, payloads, frames⟩ := tracks.disjointFrames
  refine ⟨after, ran, ⟨accepted, sublist, appended⟩, inRange, live_length inRange,
    tracks.suffix, blocks, payloads, frames.ordered, ?_⟩
  intro block member
  have inside : block.position + block.length ≤ after.appended.length :=
    Nat.le_trans (frames.bounded block member) (Nat.sub_le _ _)
  obtain ⟨valid, size, payload⟩ :=
    (recogniseFrame_eq_some_iff _ _ _).mp (frames.framed block member)
  refine ⟨inside, _, rfl, valid, ?_, payload⟩
  rw [size, List.length_take, List.length_drop]
  omega

/-- Two frames, with a chunk between them that overflows and a byte that is cleared. -/
def overflowingCalls : List StreamCall :=
  [.feed (some (encodeFrame 1 [10] ++ (encodeFrame 2 [20]).take 5)),
    .feed (some (List.replicate kBufferCapacity 1)), .feed (some [1]), .reset,
    .feed (some (encodeFrame 3 [30] ++ [1]))]

theorem run_delivers_disjoint_frames_overflow :
    ∃ after, (empty .zeros).run .bits64 silentCallbacks overflowingCalls = some after ∧
      (∃ accepted : List Bytes, accepted.Sublist (overflowingCalls.flatMap offered) ∧
        after.appended = accepted.flatten) ∧
      after.size = 1 ∧ after.live.length = 1 ∧ after.live <:+ after.appended ∧
      ∃ blocks : List (Found Bytes), blocks.map Found.payload = [[10], [30]] ∧
        (blocks.Pairwise fun first second =>
          first.position + first.length ≤ second.position) ∧
        ∀ block ∈ blocks, block.position + block.length ≤ after.appended.length ∧
          ∃ frame, frame = (after.appended.drop block.position).take block.length ∧
            ValidFrame frame ∧ frameSize frame = frame.length ∧
            framePayload frame = block.payload := by
  obtain ⟨after, ran, accepted, _, live, suffix, blocks, delivered, ordered, frames⟩ :=
    run_delivers_disjoint_frames silentCallbacks_quiet .zeros overflowingCalls
  have outcome : ((empty .zeros).run .bits64 silentCallbacks overflowingCalls).map
      (fun after => (payloadsOf after.invocations, after.size)) = some ([[10], [30]], 1) := by
    decide +kernel
  rw [ran, Option.map_some, Option.some_inj, Prod.mk.injEq] at outcome
  obtain ⟨payloads, size⟩ := outcome
  exact ⟨after, ran, accepted, size, live.trans size, suffix, blocks, delivered.trans payloads,
    ordered, frames⟩

/-! ## Calls without an error report -/

theorem frames_of_matched {frames payloads : List Bytes}
    (matched : List.Forall₂ (fun frame payload =>
      frameFraming.recognise frame = some (frame.length, payload)) frames payloads) :
    (∀ frame ∈ frames, ValidFrame frame ∧ frameSize frame = frame.length) ∧
      payloads = frames.map framePayload := by
  induction matched with
  | nil => exact ⟨by simp, rfl⟩
  | @cons frame payload frames payloads recognised _ ih =>
      obtain ⟨valid, size, rfl⟩ := (recogniseFrame_eq_some_iff _ _ _).mp recognised
      refine ⟨?_, by rw [List.map_cons, ← ih.2]⟩
      intro other member
      rcases List.mem_cons.mp member with rfl | member
      · exact ⟨valid, size⟩
      · exact ih.1 other member

/-- **No byte is lost silently**: a call of `feed` in which the error callback is
not invoked turns the buffered bytes and the chunk into complete valid frames,
which it delivers in order, and the bytes buffered afterwards. -/
theorem feed_without_error_keeps_bytes {callbacks : Callbacks} (quiet : callbacks.Quiet)
    (frameRegistered : callbacks.frameRegistered = true)
    (errorRegistered : callbacks.errorRegistered = true) (buffer : FrameBuffer)
    (calls : List StreamCall) (before : StreamProcessor)
    (reachable : (empty buffer).run .bits64 callbacks calls = some before) (chunk : Bytes) :
    ∃ after events, before.feed .bits64 callbacks (some chunk) = some after ∧
      after.invocations = before.invocations ++ events ∧
      (NoErrors events → ∃ frames : List Bytes,
        (∀ frame ∈ frames, ValidFrame frame ∧ frameSize frame = frame.length) ∧
        before.live ++ chunk = frames.flatten ++ after.live ∧
        events = frames.map fun frame => .frame (framePayload frame)) := by
  have inRange : before.InRange := by
    obtain ⟨after, ran, afterInRange, _⟩ :=
      run_tracks quiet calls (Nat.zero_le _) (@Tracks.empty anyLoss buffer)
    rw [reachable] at ran
    cases ran
    exact afterInRange
  obtain ⟨after, result, outcome⟩ := feed_outcome quiet inRange chunk
  cases outcome with
  | skipped empty =>
      refine ⟨before, [], result, by simp, fun _ => ⟨[], by simp, by simp [empty], rfl⟩⟩
  | unregistered missing =>
      rw [frameRegistered] at missing
      cases missing
  | extracted fits moved _ =>
      obtain ⟨_, _, events, invocations, _, exact⟩ := moved
      refine ⟨after, events, result, invocations, fun none => ?_⟩
      obtain ⟨frames, split, matched⟩ := (exact errorRegistered none).eq_frames
      obtain ⟨valid, payloads⟩ := frames_of_matched matched
      rw [withChunk_live fits] at split
      refine ⟨frames, valid, split, ?_⟩
      rw [invocations_eq_frames none, payloads, List.map_map]
      rfl
  | refused _ _ moved _ =>
      refine ⟨after, _, result, moved.invocations_eq, fun none => ?_⟩
      exact absurd none (not_noErrors_reports errorRegistered _ _)
  | recovered _ _ cleared _ moved _ =>
      obtain ⟨_, _, events, invocations, _, _⟩ := moved
      refine ⟨after, callbacks.reports overflowReport ++ events, result, ?_, fun none => ?_⟩
      · rw [invocations, StreamProcessor.withChunk, cleared.invocations_eq, List.append_assoc]
      · exact absurd none.append.1 (not_noErrors_reports errorRegistered _ _)

def listeningCallbacks : Callbacks := ⟨true, true, fun _ => false⟩

theorem listeningCallbacks_quiet : listeningCallbacks.Quiet := fun _ => rfl

/-- A chunk that completes one buffered frame, brings another and begins a third. -/
theorem feed_without_error_keeps_bytes_second_half :
    let half := (encodeFrame 7 [1, 2]).take 9
    let chunk := (encodeFrame 7 [1, 2]).drop 9 ++ encodeFrame 8 [] ++ [1, 0]
    ∃ (before after : StreamProcessor) (frames : List Bytes),
      (empty .zeros).run .bits64 listeningCallbacks [.feed (some half)] = some before ∧
      before.live = half ∧ before.feed .bits64 listeningCallbacks (some chunk) = some after ∧
      after.live = [1, 0] ∧ after.invocations = [.frame [1, 2], .frame []] ∧
      (∀ frame ∈ frames, ValidFrame frame ∧ frameSize frame = frame.length) ∧
      half ++ chunk = frames.flatten ++ [1, 0] ∧
      after.invocations = frames.map fun frame => .frame (framePayload frame) := by
  intro half chunk
  have outcome : ((empty .zeros).run .bits64 listeningCallbacks [.feed (some half)]).map
        (fun before => (before.live, before.invocations)) = some (half, []) ∧
      (((empty .zeros).run .bits64 listeningCallbacks [.feed (some half)]).bind
        (·.feed .bits64 listeningCallbacks (some chunk))).map
          (fun after => (after.live, after.invocations)) =
        some ([1, 0], [.frame [1, 2], .frame []]) := by
    decide +kernel
  obtain ⟨before, reachable, _⟩ := Option.map_eq_some_iff.mp outcome.1
  obtain ⟨after, events, fed, invocations, kept⟩ := feed_without_error_keeps_bytes
    listeningCallbacks_quiet rfl rfl .zeros [.feed (some half)] before reachable chunk
  rw [reachable, Option.map_some, Option.bind_some, fed, Option.map_some, Option.some_inj,
    Option.some_inj, Prod.mk.injEq, Prod.mk.injEq] at outcome
  obtain ⟨⟨live, silent⟩, liveAfter, made⟩ := outcome
  rw [silent, List.nil_append] at invocations
  obtain ⟨frames, valid, split, payloads⟩ := kept (by simp [← invocations, made, NoErrors])
  rw [live, liveAfter] at split
  exact ⟨before, after, frames, reachable, live, fed, liveAfter, made, valid, split,
    invocations.trans payloads⟩

end StreamProcessor

end Libcomm
