import Libcomm.StreamCleanStream
import Mathlib.Data.List.Forall2

/-!
# Finding the stream again

Whatever is buffered and whatever noise comes in, the processor finds the frames
behind it.  Unless a valid frame happens to begin inside the noise, these frames are
delivered exactly and in order, and each of them at the latest when the buffer would
have overflowed with the bytes from its first one on.
-/

set_option autoImplicit false

namespace Libcomm

open FrameScan

namespace StreamProcessor

/-- Since the start the processor has read the bytes that were buffered then and
those fed since. -/
structure ReadsOn (start : StreamProcessor) (stream : Bytes) (processor : StreamProcessor) :
    Prop where
  inRange : processor.InRange
  history : ∃ events, processor.invocations = start.invocations ++ events ∧
    Reads frameFraming (Skippable frameFraming) stream (payloadsOf events) processor.live

namespace ReadsOn
variable {callbacks : Callbacks} {start processor : StreamProcessor} {stream : Bytes}

theorem refl (inRange : start.InRange) : ReadsOn start start.live start := by
  refine ⟨inRange, [], (List.append_nil _).symm, ?_⟩
  have begun : Reads frameFraming (Skippable frameFraming) [] [] [] := .start
  have buffered := begun.append start.live
  rwa [List.nil_append] at buffered

theorem feed (quiet : callbacks.Quiet) (registered : callbacks.frameRegistered = true)
    (reads : ReadsOn start stream processor) {chunk : Bytes}
    (fits : processor.size + chunk.length ≤ kBufferCapacity) :
    ∃ after, processor.feed .bits64 callbacks (some chunk) = some after ∧
      ReadsOn start (stream ++ chunk) after := by
  by_cases empty : chunk = []
  · subst empty
    exact ⟨processor, rfl, by rwa [List.append_nil]⟩
  · obtain ⟨events, past, run⟩ := reads.history
    obtain ⟨after, result, moved, _⟩ :=
      @extractFrames_bits64 callbacks quiet (processor.withChunk chunk) fits
    obtain ⟨later, invocations, advance, _⟩ := moved.history
    refine ⟨after, ?_, moved.inRange, events ++ later, ?_, ?_⟩
    · rw [feed_fits .bits64 registered empty fits, result]
    · rw [invocations, ← List.append_assoc, ← past]
      rfl
    · rw [payloadsOf_append]
      rw [withChunk_live fits] at advance
      exact (run.append chunk).advance advance

theorem feeds (quiet : callbacks.Quiet) (registered : callbacks.frameRegistered = true)
    (chunks : List Bytes) {processor : StreamProcessor} {stream : Bytes}
    (reads : ReadsOn start stream processor)
    (fits : FitsWhenFed .bits64 callbacks processor chunks) :
    ∃ after, processor.run .bits64 callbacks (StreamProcessor.feeds chunks) = some after ∧
      ReadsOn start (stream ++ chunks.flatten) after := by
  induction chunks generalizing processor stream with
  | nil => exact ⟨processor, rfl, by rwa [List.flatten_nil, List.append_nil]⟩
  | cons chunk rest ih =>
      obtain ⟨chunkFits, restFits⟩ := fits
      obtain ⟨middle, fed, middleReads⟩ := reads.feed quiet registered chunkFits
      obtain ⟨after, ran, afterReads⟩ := ih middleReads (restFits middle fed)
      refine ⟨after, ?_, ?_⟩
      · change (processor.feed .bits64 callbacks (some chunk)).bind _ = some after
        rw [fed]
        exact ran
      · rwa [List.flatten_cons, ← List.append_assoc]

end ReadsOn

/-- What the scan finds in packets, given where they begin. -/
def packetFrames (position : Nat) (packets : List Packet) : List (Found Bytes) :=
  layout position (packets.map fun packet => ((encodePacket packet).length, packet.2))

theorem packetFrames_payloads (position : Nat) (packets : List Packet) :
    (packetFrames position packets).map Found.payload = packets.map Prod.snd := by
  rw [packetFrames, layout_payloads, List.map_map]
  rfl

theorem packetFrames_getElem? (position : Nat) (packets : List Packet) (index : Nat) :
    (packetFrames position packets)[index]? = packets[index]?.map fun packet =>
      ⟨position + (encodePackets (packets.take index)).length, (encodePacket packet).length,
        packet.2⟩ := by
  rw [packetFrames, layout_getElem?, List.getElem?_map, Option.map_map, ← List.map_take,
    List.map_map, encodePackets, List.length_flatten, List.map_map]
  rfl

theorem encodePackets_take_succ {packets : List Packet} {index : Nat}
    (inside : index < packets.length) :
    encodePackets (packets.take (index + 1)) =
      encodePackets (packets.take index) ++ encodePacket packets[index] := by
  rw [List.take_succ_eq_append_getElem inside, encodePackets_append]
  exact congrArg _ (List.append_nil _)

theorem greedyScan_packets {noise : Bytes} {packets : List Packet}
    (small : ∀ packet ∈ packets, packet.2.length ≤ kMaxFrameSize)
    (noFrame : ∀ position < noise.length,
      ¬ ValidFrame ((noise ++ encodePackets packets).drop position)) :
    greedyScan frameFraming 0 (noise ++ encodePackets packets) =
      packetFrames noise.length packets := by
  have framed : List.Forall₂ (fun frame payload =>
      frameFraming.recognise frame = some (frame.length, payload))
      (packets.map encodePacket) (packets.map Prod.snd) := by
    rw [List.forall₂_map_left_iff, List.forall₂_map_right_iff, List.forall₂_same]
    intro packet member
    obtain ⟨valid, size, payload⟩ := validFrame_encodePacket_append packet [] (small packet member)
    rw [List.append_nil] at valid size payload
    exact (recogniseFrame_eq_some_iff _ _ _).mpr ⟨valid, size, payload⟩
  have scanned := greedyScan_frames noise.length framed []
  rw [List.append_nil, greedyScan_nil, List.append_nil, List.map_map, List.zip_map'] at scanned
  rw [greedyScan_miss 0 (fun position inside => if_neg (noFrame position inside))
    (by rw [List.length_append]; exact Nat.le_add_right _ _), List.drop_left, Nat.zero_add]
  exact scanned

/-- **Recovery.**  Whatever the processor is in and whatever noise follows: if no
valid frame begins in it, the frames behind it are delivered, in order and nothing
else, none before its last byte has been fed and each of them before more bytes from
its first one on have been fed than the buffer holds. -/
theorem feed_recovers {callbacks : Callbacks} (quiet : callbacks.Quiet)
    (registered : callbacks.frameRegistered = true) (processor : StreamProcessor)
    (inRange : processor.getBufferUsage ≤ kBufferCapacity) (noise : Bytes) (packets : List Packet)
    (small : ∀ packet ∈ packets, packet.2.length ≤ kMaxFrameSize) (encoded : List Bytes)
    (built : List.Forall₂ (fun packet frame => IsBuilt packet.1 packet.2 frame) packets encoded)
    (noFrame : ∀ position < noise.length,
      ¬ ValidFrame ((noise ++ encoded.flatten).drop position))
    (chunks : List Bytes) (unfed : Bytes)
    (cut : processor.live ++ chunks.flatten ++ unfed = noise ++ encoded.flatten)
    (fits : FitsWhenFed .bits64 callbacks processor chunks) :
    ∃ after events count, processor.run .bits64 callbacks (feeds chunks) = some after ∧
      after.invocations = processor.invocations ++ events ∧ count ≤ packets.length ∧
      payloadsOf events = (packets.take count).map Prod.snd ∧
      (∀ index < count, noise.length + (encoded.take (index + 1)).flatten.length ≤
        processor.getBufferUsage + chunks.flatten.length) ∧
      ∀ index < packets.length, noise.length + (encoded.take index).flatten.length +
        kBufferCapacity < processor.getBufferUsage + chunks.flatten.length → index < count := by
  have encodings := built_eq_map small built
  subst encodings
  have usage : processor.live.length = processor.getBufferUsage := live_length inRange
  have encodedTake (count : Nat) :
      ((packets.map encodePacket).take count).flatten = encodePackets (packets.take count) := by
    rw [← List.map_take, encodePackets]
  obtain ⟨after, ran, reads⟩ := (ReadsOn.refl inRange).feeds quiet registered chunks fits
  obtain ⟨events, past, run⟩ := reads.history
  obtain ⟨found, delivered, scan⟩ := run.greedyScan_eq
  have whole := scan unfed
  rw [cut, ← encodePackets, greedyScan_packets small noFrame] at whole
  have prefixed : found <+: packetFrames noise.length packets := whole ▸ List.prefix_append _ _
  have counted : found.length ≤ packets.length := by
    refine Nat.le_trans prefixed.length_le (Nat.le_of_eq ?_)
    rw [← List.length_map Found.payload, packetFrames_payloads, List.length_map]
  refine ⟨after, events, found.length, ran, past, counted, ?_, ?_, ?_⟩
  · have front : (packetFrames noise.length packets).take found.length = found :=
      (List.prefix_iff_eq_take.mp prefixed).symm
    calc payloadsOf events
        = ((packetFrames noise.length packets).take found.length).map Found.payload := by
          rw [front, delivered]
      _ = (packets.take found.length).map Prod.snd := by
          rw [List.map_take, packetFrames_payloads, List.map_take]
  · intro index early
    have inside := Nat.lt_of_lt_of_le early counted
    have place := packetFrames_getElem? noise.length packets index
    rw [whole, List.getElem?_append_left early, List.getElem?_eq_getElem inside,
      Option.map_some] at place
    have seen := scan []
    rw [List.append_nil] at seen
    have bounds := greedyScan_bounds frameFraming 0 _ _
      (seen ▸ List.mem_append_left _ (List.mem_of_getElem? place))
    rw [encodedTake, encodePackets_take_succ inside, List.length_append]
    simp only [List.length_append, usage] at bounds
    omega
  · intro index inside far
    by_contra late
    have place := packetFrames_getElem? noise.length packets index
    rw [whole, List.getElem?_append_right (Nat.le_of_not_lt late),
      List.getElem?_eq_getElem inside, Option.map_some] at place
    have bounds := greedyScan_bounds frameFraming _ _ _ (List.mem_of_getElem? place)
    have buffered : after.live.length ≤ kBufferCapacity :=
      Nat.le_trans (Nat.le_of_eq (live_length reads.inRange)) reads.inRange
    rw [encodedTake] at far
    simp only [List.length_append, usage] at bounds
    omega

def strayProcessor : StreamProcessor := (empty .zeros).withChunk [1, 0]

theorem feed_recovers_behind_stray_header :
    ∃ after events count, strayProcessor.run .bits64 listeningCallbacks
        (feeds [[0x55] ++ encodeFrame 7 [0xAB]]) = some after ∧
      after.invocations = strayProcessor.invocations ++ events ∧
      count ≤ [((7 : UInt16), ([0xAB] : Bytes))].length ∧
      payloadsOf events = ([((7 : UInt16), ([0xAB] : Bytes))].take count).map Prod.snd ∧
      (∀ index < count, [1, 0, 0x55].length +
        ([encodeFrame 7 [0xAB]].take (index + 1)).flatten.length ≤
          strayProcessor.getBufferUsage + [[0x55] ++ encodeFrame 7 [0xAB]].flatten.length) ∧
      ∀ index < [((7 : UInt16), ([0xAB] : Bytes))].length, [1, 0, 0x55].length +
        ([encodeFrame 7 [0xAB]].take index).flatten.length + kBufferCapacity <
          strayProcessor.getBufferUsage + [[0x55] ++ encodeFrame 7 [0xAB]].flatten.length →
            index < count :=
  feed_recovers listeningCallbacks_quiet rfl strayProcessor (by decide) [1, 0, 0x55]
    [(7, [0xAB])] (by decide) [encodeFrame 7 [0xAB]]
    (.cons ((isBuilt_iff 7 [0xAB] _ (by decide)).mpr rfl) .nil) (by decide)
    [[0x55] ++ encodeFrame 7 [0xAB]] []
    (by rw [strayProcessor, withChunk_live (by decide)]; rfl)
    ⟨by decide, fun _ _ => trivial⟩

end StreamProcessor

end Libcomm
