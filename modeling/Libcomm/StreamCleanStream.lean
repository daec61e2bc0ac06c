import Libcomm.StreamDelivery

/-!
# Clean streams

A stream of nothing but frames is delivered frame by frame, as soon as the last
byte of a frame has come in, however the stream is cut.  The proof follows the
frames inside one call of `feed` and the chunks outside it; what both keep is
`Aligned`: the buffer begins where the next frame begins.
-/

set_option autoImplicit false

namespace Libcomm

open WhileLoop

abbrev Packet := UInt16 × Bytes

def encodePacket (packet : Packet) : Bytes := encodeFrame packet.1 packet.2

def encodePackets (packets : List Packet) : Bytes := (packets.map encodePacket).flatten

@[simp] theorem encodePackets_cons (packet : Packet) (packets : List Packet) :
    encodePackets (packet :: packets) = encodePacket packet ++ encodePackets packets := rfl

@[simp] theorem encodePackets_append (front back : List Packet) :
    encodePackets (front ++ back) = encodePackets front ++ encodePackets back := by
  simp [encodePackets]

def deliveries (packets : List Packet) : List Invocation :=
  packets.map fun packet => .frame packet.2

@[simp] theorem deliveries_append (front back : List Packet) :
    deliveries (front ++ back) = deliveries front ++ deliveries back :=
  List.map_append

theorem built_eq_map {packets : List Packet} {encoded : List Bytes}
    (small : ∀ packet ∈ packets, packet.2.length ≤ kMaxFrameSize)
    (built : List.Forall₂ (fun packet frame => IsBuilt packet.1 packet.2 frame) packets encoded) :
    encoded = packets.map encodePacket := by
  induction built with
  | nil => rfl
  | @cons packet frame packets encoded head _ ih =>
      have headSmall := small packet List.mem_cons_self
      have tailSmall := fun other member => small other (List.mem_cons_of_mem _ member)
      rw [List.map_cons, ← ih tailSmall, (isBuilt_iff _ _ _ headSmall).mp head]
      rfl

namespace StreamProcessor

/-! ## Alignment -/

/-- The packets of `done` have been delivered and nothing else was invoked; the
buffered and the unfed bytes are the encodings of `rest`. -/
structure Aligned (done rest : List Packet) (unfed : Bytes) (processor : StreamProcessor) :
    Prop where
  inRange : processor.InRange
  small : ∀ packet ∈ rest, packet.2.length ≤ kMaxFrameSize
  invocations_eq : processor.invocations = deliveries done
  split : processor.live ++ unfed = encodePackets rest

/-- The next frame has not been fed completely. -/
def Waiting (rest : List Packet) (processor : StreamProcessor) : Prop :=
  ∀ packet ∈ rest.head?, processor.live.length < (encodePacket packet).length

theorem Aligned.announced {done rest : List Packet} {packet : Packet} {unfed : Bytes}
    {processor : StreamProcessor} (aligned : Aligned done (packet :: rest) unfed processor)
    (header : kHeaderSize ≤ processor.live.length) :
    frameSize processor.live = (encodePacket packet).length := by
  have small := aligned.small packet List.mem_cons_self
  have split := aligned.split
  have encodedHeader : kHeaderSize ≤ (encodePacket packet).length := by
    rw [encodePacket, encodeFrame_length]
    omega
  have front : frameSize (processor.live ++ unfed) = frameSize processor.live :=
    frameSize_append _ _ header
  rw [encodePackets_cons] at split
  rw [← front, split, frameSize_append _ _ encodedHeader]
  exact frameSize_encodeFrame packet.1 packet.2 small

/-- A front that announces no more than a frame may hold is measured without wrap. -/
theorem announcedTotal_eq (sizeType : SizeType) {bytes : Bytes}
    (small : announcedSize bytes ≤ kMaxFrameSize) :
    announcedTotal sizeType bytes = frameSize bytes := by
  rcases expectedTotalSizeBytes_cases sizeType (loadUInt32 bytes 4) with exact | ⟨_, wraps, _⟩
  · exact exact
  · simp only [announcedSize, kMaxFrameSize, kHeaderSize, kCrcSize] at small wraps
    omega

theorem frameSize_le_capacity {bytes : Bytes} (small : announcedSize bytes ≤ kMaxFrameSize) :
    frameSize bytes ≤ kBufferCapacity := by
  simp only [frameSize, kBufferCapacity]
  omega

/-- Behind an aligned buffer front the next frame begins. -/
theorem Aligned.announcedSize_le {done rest : List Packet} {packet : Packet} {unfed : Bytes}
    {processor : StreamProcessor} (aligned : Aligned done (packet :: rest) unfed processor)
    (header : kHeaderSize ≤ processor.live.length) :
    announcedSize processor.live ≤ kMaxFrameSize := by
  have small := aligned.small packet List.mem_cons_self
  have size := aligned.announced header
  rw [encodePacket, encodeFrame_length, frameSize] at size
  omega

theorem Aligned.incomplete {done rest : List Packet} {unfed : Bytes}
    {processor : StreamProcessor} (aligned : Aligned done rest unfed processor)
    (waiting : Waiting rest processor) (sizeType : SizeType) :
    Incomplete sizeType processor.live := by
  by_cases header : kHeaderSize ≤ processor.live.length
  · cases rest with
    | nil =>
        have nothing : processor.live = [] := (List.append_eq_nil_iff.mp aligned.split).1
        rw [nothing] at header
        exact absurd header (by decide)
    | cons packet later =>
        have short := waiting packet rfl
        have small := aligned.announcedSize_le header
        have total := announcedTotal_eq sizeType small
        rw [← aligned.announced header] at short
        exact Or.inr ⟨total ▸ frameSize_le_capacity small, Or.inr (total ▸ short)⟩
  · exact Or.inl (Nat.lt_of_not_le header)

theorem Aligned.complete {done rest : List Packet} {packet : Packet} {unfed : Bytes}
    {processor : StreamProcessor} (aligned : Aligned done (packet :: rest) unfed processor)
    (complete : (encodePacket packet).length ≤ processor.live.length) :
    ∃ behind, processor.live = encodePacket packet ++ behind ∧
      behind ++ unfed = encodePackets rest := by
  obtain ⟨behind, front⟩ : encodePacket packet <+: processor.live := by
    refine List.prefix_of_prefix_length_le ?_ (List.prefix_append _ unfed) complete
    rw [aligned.split, encodePackets_cons]
    exact List.prefix_append _ _
  refine ⟨behind, front.symm, ?_⟩
  have split := aligned.split
  rw [← front, encodePackets_cons, List.append_assoc] at split
  exact List.append_cancel_left split

theorem validFrame_encodePacket_append (packet : Packet) (behind : Bytes)
    (small : packet.2.length ≤ kMaxFrameSize) :
    ValidFrame (encodePacket packet ++ behind) ∧
      frameSize (encodePacket packet ++ behind) = (encodePacket packet).length ∧
      framePayload (encodePacket packet ++ behind) = packet.2 := by
  have size : frameSize (encodePacket packet) = (encodePacket packet).length :=
    frameSize_encodeFrame packet.1 packet.2 small
  have whole : frameSize (encodePacket packet) ≤ (encodePacket packet).length :=
    Nat.le_of_eq size
  have header : kHeaderSize ≤ (encodePacket packet).length :=
    Nat.le_trans (Nat.le_trans (by decide) (frameSize_ge _)) whole
  refine ⟨(validFrame_append _ _ whole).mpr (validFrame_encodeFrame _ _ small), ?_, ?_⟩
  · rw [frameSize_append _ _ header, size]
  · rw [framePayload_append _ _ whole]
    exact framePayload_encodeFrame packet.1 packet.2 small

/-! ## Passes over an aligned buffer -/

theorem not_incomplete_of_valid (sizeType : SizeType) {bytes : Bytes} (valid : ValidFrame bytes) :
    ¬ Incomplete sizeType bytes := by
  have minimum := frameSize_ge bytes
  have complete := valid.complete
  have total := announcedTotal_eq sizeType valid.size_le
  have order : kMinimumFrameSize = kHeaderSize + kCrcSize := rfl
  rintro (short | ⟨_, short | short⟩) <;> omega

theorem extractPass_of_incomplete {callbacks : Callbacks} (quiet : callbacks.Quiet)
    (sizeType : SizeType) {processor : StreamProcessor} (inRange : processor.InRange)
    (extractedAny : Bool) (incomplete : Incomplete sizeType processor.live) :
    extractPass sizeType callbacks (processor, extractedAny) = .exit (processor, extractedAny) := by
  have notOversize : ¬ Oversize sizeType processor.live := by
    rintro ⟨header, exceeds⟩
    rcases incomplete with short | ⟨fits, _⟩ <;> omega
  have notRejected : ¬ Rejected sizeType processor.live := by
    rintro ⟨minimum, inside, _, _⟩
    have order : kHeaderSize ≤ kMinimumFrameSize := by decide
    rcases incomplete with short | ⟨_, short | short⟩ <;> omega
  have outcome := extractPass_outcome quiet sizeType processor inRange extractedAny
  generalize extractPass sizeType callbacks (processor, extractedAny) = pass at outcome
  cases outcome with
  | waits _ => rfl
  | resynced reason _ _ _ _ _ _ =>
      rcases reason with ⟨_, oversize⟩ | ⟨_, rejected⟩
      · exact absurd oversize notOversize
      · exact absurd rejected notRejected
  | cleared oversize _ _ _ => exact absurd oversize notOversize
  | delivered valid _ => exact absurd incomplete (not_incomplete_of_valid sizeType valid)
  | discarded rejected _ _ _ => exact absurd rejected notRejected

theorem extractPass_of_valid {callbacks : Callbacks} (quiet : callbacks.Quiet)
    (sizeType : SizeType) {processor : StreamProcessor} (inRange : processor.InRange)
    (extractedAny : Bool) (valid : ValidFrame processor.live) :
    ∃ next, extractPass sizeType callbacks (processor, extractedAny) = .again (next, true) ∧
      processor.Moved [.frame (framePayload processor.live)]
        (processor.live.drop (frameSize processor.live)) next := by
  have total := announcedTotal_eq sizeType valid.size_le
  have notOversize : ¬ Oversize sizeType processor.live := by
    rintro ⟨_, exceeds⟩
    rw [total] at exceeds
    exact absurd (frameSize_le_capacity valid.size_le) (Nat.not_le_of_lt exceeds)
  have notRejected : ¬ Rejected sizeType processor.live :=
    fun rejected => rejected.invalid ⟨valid, total.symm⟩
  have outcome := extractPass_outcome quiet sizeType processor inRange extractedAny
  generalize extractPass sizeType callbacks (processor, extractedAny) = pass at outcome
  cases outcome with
  | waits incomplete => exact absurd incomplete (not_incomplete_of_valid sizeType valid)
  | resynced reason _ _ _ _ _ _ =>
      rcases reason with ⟨_, oversize⟩ | ⟨_, rejected⟩
      · exact absurd oversize notOversize
      · exact absurd rejected notRejected
  | cleared oversize _ _ _ => exact absurd oversize notOversize
  | delivered _ moved => exact ⟨_, rfl, moved⟩
  | discarded rejected _ _ _ => exact absurd rejected notRejected

theorem Aligned.deliver {callbacks : Callbacks} (quiet : callbacks.Quiet) (sizeType : SizeType)
    {done rest : List Packet} {packet : Packet} {unfed : Bytes} {processor : StreamProcessor}
    (aligned : Aligned done (packet :: rest) unfed processor)
    (complete : (encodePacket packet).length ≤ processor.live.length) (extractedAny : Bool) :
    ∃ next, extractPass sizeType callbacks (processor, extractedAny) = .again (next, true) ∧
      Aligned (done ++ [packet]) rest unfed next ∧ next.size < processor.size := by
  have length := live_length aligned.inRange
  obtain ⟨behind, front, split⟩ := aligned.complete complete
  obtain ⟨valid, size, payload⟩ := validFrame_encodePacket_append packet behind
    (aligned.small packet List.mem_cons_self)
  rw [← front] at valid size payload
  obtain ⟨next, continues, moved⟩ :=
    extractPass_of_valid quiet sizeType aligned.inRange extractedAny valid
  have positive : 0 < (encodePacket packet).length := by
    rw [encodePacket, encodeFrame_length]
    exact Nat.lt_of_lt_of_le (by decide : 0 < kCrcSize) (Nat.le_add_left _ _)
  have left : processor.live.drop (frameSize processor.live) = behind := by
    rw [size, front, List.drop_left]
  rw [left, payload] at moved
  have shorter : next.size < processor.size := by
    rw [moved.size_eq, ← length, front, List.length_append]
    omega
  refine ⟨next, continues, ⟨?_, ?_, ?_, ?_⟩, shorter⟩
  · exact Nat.le_trans (Nat.le_of_lt shorter) aligned.inRange
  · exact fun other member => aligned.small other (List.mem_cons_of_mem _ member)
  · rw [moved.invocations_eq, aligned.invocations_eq, deliveries_append]
    rfl
  · rw [moved.live_eq, split]

/-! ## Frames and chunks -/

theorem Waiting.of_not_complete {packet : Packet} {rest : List Packet}
    {processor : StreamProcessor}
    (short : processor.live.length < (encodePacket packet).length) :
    Waiting (packet :: rest) processor := by
  intro other member
  cases Option.mem_some.mp member
  exact short

/-- The extraction delivers the frames that have come in, whatever their number. -/
theorem Aligned.extract {callbacks : Callbacks} (quiet : callbacks.Quiet) (sizeType : SizeType)
    {done rest : List Packet} {unfed : Bytes} {processor : StreamProcessor}
    (aligned : Aligned done rest unfed processor) (extractedAny : Bool) {fuel : Nat}
    (enough : processor.size < fuel) :
    ∃ final delivered left,
      WhileLoop.run (extractPass sizeType callbacks) fuel (processor, extractedAny) = some final ∧
      rest = delivered ++ left ∧ Aligned (done ++ delivered) left unfed final.1 ∧
      Waiting left final.1 := by
  obtain ⟨fuel, rfl⟩ : ∃ less, fuel = less + 1 := ⟨fuel - 1, by omega⟩
  induction rest generalizing done processor extractedAny fuel with
  | nil =>
      have waiting : Waiting [] processor := fun _ member => absurd member (by simp)
      have leaves := extractPass_of_incomplete quiet sizeType aligned.inRange extractedAny
        (aligned.incomplete waiting sizeType)
      exact ⟨(processor, extractedAny), [], [], run_exit leaves fuel, rfl,
        by rwa [List.append_nil], waiting⟩
  | cons packet rest ih =>
      by_cases complete : (encodePacket packet).length ≤ processor.live.length
      · obtain ⟨next, continues, nextAligned, shorter⟩ :=
          aligned.deliver quiet sizeType complete extractedAny
        obtain ⟨less, rfl⟩ : ∃ less, fuel = less + 1 := ⟨fuel - 1, by omega⟩
        obtain ⟨final, delivered, left, result, split, finalAligned, waiting⟩ :=
          ih nextAligned true less (by omega)
        refine ⟨final, packet :: delivered, left, ?_, by rw [split, List.cons_append], ?_, waiting⟩
        · rw [run_again continues, result]
        · rw [List.append_assoc] at finalAligned
          exact finalAligned
      · have waiting : Waiting (packet :: rest) processor :=
          .of_not_complete (Nat.lt_of_not_le complete)
        have leaves := extractPass_of_incomplete quiet sizeType aligned.inRange extractedAny
          (aligned.incomplete waiting sizeType)
        exact ⟨(processor, extractedAny), [], packet :: rest, run_exit leaves fuel, rfl,
          by rwa [List.append_nil], waiting⟩

theorem Aligned.withChunk {done rest : List Packet} {chunk unfed : Bytes}
    {processor : StreamProcessor} (aligned : Aligned done rest (chunk ++ unfed) processor)
    (fits : processor.size + chunk.length ≤ kBufferCapacity) :
    Aligned done rest unfed (processor.withChunk chunk) := by
  refine ⟨fits, aligned.small, aligned.invocations_eq, ?_⟩
  rw [withChunk_live fits, List.append_assoc]
  exact aligned.split

theorem Aligned.feed {callbacks : Callbacks} (quiet : callbacks.Quiet)
    (registered : callbacks.frameRegistered = true) (sizeType : SizeType)
    {done rest : List Packet} {chunk unfed : Bytes} {processor : StreamProcessor}
    (aligned : Aligned done rest (chunk ++ unfed) processor) (waiting : Waiting rest processor)
    (fits : processor.size + chunk.length ≤ kBufferCapacity) :
    ∃ after delivered left, processor.feed sizeType callbacks (some chunk) = some after ∧
      rest = delivered ++ left ∧ Aligned (done ++ delivered) left unfed after ∧
      Waiting left after := by
  by_cases empty : chunk = []
  · subst empty
    exact ⟨processor, [], rest, rfl, rfl, by rwa [List.append_nil], waiting⟩
  · obtain ⟨final, delivered, left, result, split, finalAligned, finalWaiting⟩ :=
      (aligned.withChunk fits).extract quiet sizeType false (Nat.lt_succ_self _)
    refine ⟨final.1, delivered, left, ?_, split, finalAligned, finalWaiting⟩
    rw [feed_fits sizeType registered empty fits, extractFrames, result]
    rfl

theorem Aligned.feeds {callbacks : Callbacks} (quiet : callbacks.Quiet)
    (registered : callbacks.frameRegistered = true) (sizeType : SizeType) (chunks : List Bytes)
    {done rest : List Packet} {unfed : Bytes} {processor : StreamProcessor}
    (aligned : Aligned done rest (chunks.flatten ++ unfed) processor)
    (waiting : Waiting rest processor)
    (fits : FitsWhenFed sizeType callbacks processor chunks) :
    ∃ after delivered left, processor.run sizeType callbacks (feeds chunks) = some after ∧
      rest = delivered ++ left ∧ Aligned (done ++ delivered) left unfed after ∧
      Waiting left after := by
  induction chunks generalizing done rest processor with
  | nil => exact ⟨processor, [], rest, rfl, rfl, by rwa [List.append_nil], waiting⟩
  | cons chunk chunks ih =>
      obtain ⟨chunkFits, restFits⟩ := fits
      rw [List.flatten_cons, List.append_assoc] at aligned
      obtain ⟨middle, front, remaining, fed, split, middleAligned, middleWaiting⟩ :=
        aligned.feed quiet registered sizeType waiting chunkFits
      obtain ⟨after, back, left, ran, later, afterAligned, afterWaiting⟩ :=
        ih middleAligned middleWaiting (restFits middle fed)
      refine ⟨after, front ++ back, left, ?_, ?_, ?_, afterWaiting⟩
      · change (processor.feed sizeType callbacks (some chunk)).bind _ = some after
        rw [fed]
        exact ran
      · rw [split, later, List.append_assoc]
      · rwa [← List.append_assoc]

/-! ## The whole stream -/

theorem encodePackets_take_mono (packets : List Packet) {fewer more : Nat} (le : fewer ≤ more) :
    (encodePackets (packets.take fewer)).length ≤ (encodePackets (packets.take more)).length := by
  obtain ⟨behind, split⟩ := List.take_prefix_take_left (l := packets) le
  rw [← split, encodePackets_append, List.length_append]
  exact Nat.le_add_right _ _

/-- **A clean stream is delivered exactly and promptly.**  After the chunks fed
so far, with `unfed` still to come: the frame callback has been invoked for the
frames whose last byte has been fed and nothing else has, and what is buffered
is the part of the next frame. -/
theorem feed_delivers_clean_stream {callbacks : Callbacks} (quiet : callbacks.Quiet)
    (frameRegistered : callbacks.frameRegistered = true) (sizeType : SizeType)
    (buffer : FrameBuffer) (packets : List Packet)
    (small : ∀ packet ∈ packets, packet.2.length ≤ kMaxFrameSize) (encoded : List Bytes)
    (built : List.Forall₂ (fun packet frame => IsBuilt packet.1 packet.2 frame) packets encoded)
    (chunks : List Bytes) (unfed : Bytes) (cut : chunks.flatten ++ unfed = encoded.flatten)
    (fits : FitsWhenFed sizeType callbacks (empty buffer) chunks) :
    ∃ after count, (empty buffer).run sizeType callbacks (feeds chunks) = some after ∧
      count ≤ packets.length ∧
      (∀ index < packets.length, index < count ↔
        (encoded.take (index + 1)).flatten.length ≤ chunks.flatten.length) ∧
      after.invocations = (packets.take count).map (fun packet => .frame packet.2) ∧
      (encoded.take count).flatten.length + after.getBufferUsage = chunks.flatten.length := by
  have encodings := built_eq_map small built
  subst encodings
  have aligned : Aligned [] packets (chunks.flatten ++ unfed) (empty buffer) :=
    ⟨Nat.zero_le _, small, rfl, cut⟩
  have waiting : Waiting packets (empty buffer) := by
    intro packet _
    rw [encodePacket, encodeFrame_length]
    exact Nat.lt_of_lt_of_le (by decide : 0 < kCrcSize) (Nat.le_add_left _ _)
  obtain ⟨after, delivered, left, ran, split, afterAligned, afterWaiting⟩ :=
    aligned.feeds quiet frameRegistered sizeType chunks waiting fits
  have buffered : after.live.length = after.size := live_length afterAligned.inRange
  have taken : packets.take delivered.length = delivered := by rw [split, List.take_left]
  have encodedTake (count : Nat) :
      ((packets.map encodePacket).take count).flatten = encodePackets (packets.take count) := by
    rw [← List.map_take, encodePackets]
  have fed : (encodePackets delivered).length + after.size = chunks.flatten.length := by
    have whole : chunks.flatten ++ unfed = encodePackets packets := cut
    have lengths := congrArg List.length whole
    rw [split, encodePackets_append, ← afterAligned.split] at lengths
    simp only [List.length_append] at lengths
    omega
  refine ⟨after, delivered.length, ran, ?_, ?_, ?_, ?_⟩
  · rw [split, List.length_append]
    exact Nat.le_add_right _ _
  · intro index inside
    rw [encodedTake, ← fed]
    constructor
    · intro early
      have bound := encodePackets_take_mono packets (Nat.succ_le_of_lt early)
      rw [taken] at bound
      exact Nat.le_trans bound (Nat.le_add_right _ _)
    · intro complete
      by_contra late
      cases left with
      | nil =>
          rw [split, List.append_nil] at inside
          exact late inside
      | cons packet later =>
          have short := afterWaiting packet rfl
          have bound := encodePackets_take_mono packets
            (show delivered.length + 1 ≤ index + 1 by omega)
          have next : packets.take (delivered.length + 1) = delivered ++ [packet] := by
            rw [split, List.take_append, List.take_of_length_le (by omega)]
            simp
          rw [next, encodePackets_append, List.length_append] at bound
          have single : encodePackets [packet] = encodePacket packet := List.append_nil _
          rw [single] at bound
          omega
  · rw [taken, afterAligned.invocations_eq]
    rfl
  · rw [encodedTake, taken]
    exact fed

def twoPackets : List Packet := [(7, [0xAB]), (8, [])]

/-- The second frame is cut after its second byte. -/
theorem feed_delivers_clean_stream_two_packets :
    ∃ after count, (empty .zeros).run .bits64 listeningCallbacks
        (feeds [(encodePackets twoPackets).take 15]) = some after ∧
      count ≤ twoPackets.length ∧
      (∀ index < twoPackets.length, index < count ↔
        ((twoPackets.map encodePacket).take (index + 1)).flatten.length ≤
          [(encodePackets twoPackets).take 15].flatten.length) ∧
      after.invocations = (twoPackets.take count).map (fun packet => .frame packet.2) ∧
      ((twoPackets.map encodePacket).take count).flatten.length + after.getBufferUsage =
        [(encodePackets twoPackets).take 15].flatten.length :=
  feed_delivers_clean_stream listeningCallbacks_quiet rfl .bits64 .zeros twoPackets (by decide)
    (twoPackets.map encodePacket)
    (.cons ((isBuilt_iff 7 [0xAB] _ (by decide)).mpr rfl)
      (.cons ((isBuilt_iff 8 [] _ (by decide)).mpr rfl) .nil))
    [(encodePackets twoPackets).take 15] ((encodePackets twoPackets).drop 15)
    (by rw [List.flatten_singleton, List.take_append_drop]; rfl)
    (fitsWhenFed_of_short listeningCallbacks_quiet rfl _ (Nat.zero_le _) (.empty .zeros)
      (by decide))

end StreamProcessor

end Libcomm
