import Libcomm.OtaActivation
import Libcomm.OtaMessages
import Libcomm.StreamCleanStream

/-!
# The update receiver

The parts of a device put together: a stream processor is fed what comes over the line,
its frame callback hands the payloads to the update endpoint, and the handlers of the
endpoint are those of the manager.  Noise activates nothing, whatever it is, and an update
arrives although other endpoints use the line.
-/

set_option autoImplicit false

namespace Libcomm

open FlatBuffers FrameScan OtaManager StreamProcessor

/-! ## Activations of a run -/

namespace OtaManager

theorem handle_extends (manager : OtaManager) (input : OtaInput) :
    ∃ calls, callsOf (manager.handle input).trace = callsOf manager.trace ++ calls := by
  obtain ⟨events, extended⟩ := manager.run_extends [input]
  exact ⟨callsOf events, (congrArg callsOf extended).trans (callsOf_append _ _)⟩

theorem activated_iff {first : OtaManager} (fresh : .activate true ∉ callsOf first.trace)
    (inputs : List OtaInput) :
    .activate true ∈ callsOf (first.run inputs).trace ↔
      ∃ earlier input later, inputs = earlier ++ [input] ++ later ∧
        Activates (first.run earlier) input := by
  induction inputs using List.reverseRecOn with
  | nil =>
      refine ⟨fun member => absurd member fresh, ?_⟩
      rintro ⟨earlier, input, later, whole, _⟩
      simp at whole
  | append_singleton inputs input ih =>
      obtain ⟨calls, made⟩ := (first.run inputs).handle_extends input
      rw [run_snoc, made, List.mem_append, ih]
      constructor
      · rintro (⟨earlier, other, later, rfl, activates⟩ | member)
        · exact ⟨earlier, other, later ++ [input], by simp, activates⟩
        · exact ⟨inputs, input, [], by simp, calls, made, member⟩
      · rintro ⟨earlier, other, later, whole, activates⟩
        rcases List.eq_nil_or_concat later with rfl | ⟨front, last, rfl⟩
        · rw [List.append_nil] at whole
          obtain ⟨rfl, same⟩ := List.append_inj' whole rfl
          obtain rfl := List.singleton_inj.mp same
          obtain ⟨others, madeToo, member⟩ := activates
          rw [made] at madeToo
          exact Or.inr (List.append_cancel_left madeToo ▸ member)
        · rw [List.concat_eq_append, ← List.append_assoc] at whole
          obtain ⟨rfl, _⟩ := List.append_inj' whole rfl
          exact Or.inl ⟨earlier, other, front, rfl, activates⟩

/-- A run activates an image exactly when a part of it is an accepted upload. -/
theorem activated_iff_endsInUpload {first : OtaManager} (initially : first.status ≠ .receiving)
    (fresh : .activate true ∉ callsOf first.trace) (inputs : List OtaInput) :
    .activate true ∈ callsOf (first.run inputs).trace ↔
      ∃ front later, inputs = front ++ later ∧ EndsInUpload first front := by
  rw [activated_iff fresh]
  constructor
  · rintro ⟨earlier, input, later, rfl, activates⟩
    exact ⟨earlier ++ [input], later, rfl, endsInUpload_of_activates initially activates⟩
  · rintro ⟨front, later, rfl, ends⟩
    obtain ⟨earlier, _, _, _, _, rfl, ⟨opening, data, closing, rfl, _, _, _⟩, _⟩ := id ends
    rw [← List.append_assoc] at ends ⊢
    exact ⟨_, closing, later, rfl, activates_of_endsInUpload ends⟩

end OtaManager

namespace OtaEndpoint

/-! ## Recorded messages -/

def text (bytes : Option Bytes) : Option String :=
  bytes.bind fun bytes => String.fromUTF8? ⟨bytes.toArray⟩

def Table.ofFields : UInt8 → List FieldValue → Table
  | 1, [.scalar target, .scalar firmwareSize, .scalar firmwareCrc32, .vector versionString,
      .scalar totalChunks, .scalar compressedSize, .scalar compressedCrc32] =>
      .otaBegin ⟨.ofNat target, .ofNat firmwareSize, .ofNat firmwareCrc32, .ofNat totalChunks⟩
        (text versionString) (.ofNat compressedSize) (.ofNat compressedCrc32)
  | 2, [.scalar target, .scalar chunkIndex, .vector data] =>
      .otaData ⟨.ofNat target, .ofNat chunkIndex, data⟩
  | 3, [.scalar target] => .otaEnd ⟨.ofNat target⟩
  | 4, [.scalar target, .scalar status, .scalar chunksReceived, .scalar totalChunks,
      .vector errorMessage] =>
      .otaProgress ⟨.ofNat target, .ofNat status, .ofNat chunksReceived, .ofNat totalChunks,
        text errorMessage⟩
  | 5, [.scalar target, .vector reason] => .otaAbort ⟨.ofNat target, text reason⟩
  | _, _ => .otaAbort ⟨.stm32, none⟩

/-- The buffers of an update of two chunks. -/
def recordings : List (Envelope Table × Bytes) :=
  [(buildOtaBeginMessage .stm32 2 0x12345678 none 2,
    [0x10, 0, 0, 0, 0x4F, 0x54, 0x41, 0x58, 8, 0, 0x0E, 0, 7, 0, 8, 0, 8, 0, 0, 0, 0, 0, 0, 1,
      0x14, 0, 0, 0, 0, 0, 0x0E, 0, 0x10, 0, 0, 0, 8, 0, 0x0C, 0, 0, 0, 6, 0, 0x0E, 0, 0, 0, 0, 0,
      2, 0, 2, 0, 0, 0, 0x78, 0x56, 0x34, 0x12]),
  (buildOtaDataMessage .stm32 0 (some [0xAB]) 1,
    [0x10, 0, 0, 0, 0x4F, 0x54, 0x41, 0x58, 8, 0, 0x0E, 0, 7, 0, 8, 0, 8, 0, 0, 0, 0, 0, 0, 2,
      0x10, 0, 0, 0, 0, 0, 0x0A, 0, 8, 0, 0, 0, 0, 0, 4, 0, 0x0A, 0, 0, 0, 4, 0, 0, 0, 1, 0, 0, 0,
      0xAB, 0, 0, 0]),
  (buildOtaDataMessage .stm32 1 (some [0xCD]) 1,
    [0x10, 0, 0, 0, 0x4F, 0x54, 0x41, 0x58, 8, 0, 0x0E, 0, 7, 0, 8, 0, 8, 0, 0, 0, 0, 0, 0, 2,
      0x10, 0, 0, 0, 0, 0, 0x0A, 0, 0x0C, 0, 0, 0, 6, 0, 8, 0, 0x0A, 0, 0, 0, 0, 0, 1, 0, 4, 0, 0,
      0, 1, 0, 0, 0, 0xCD, 0, 0, 0]),
  (buildOtaEndMessage .stm32,
    [0x10, 0, 0, 0, 0x4F, 0x54, 0x41, 0x58, 8, 0, 0x0C, 0, 7, 0, 8, 0, 8, 0, 0, 0, 0, 0, 0, 3, 8,
      0, 0, 0, 4, 0, 4, 0, 4, 0, 0, 0])]

def otaCode : TableCode Table :=
  recordedTables format.identifier members Table.ofFields recordings

theorem otaCode_inverts : otaCode.Inverts format Belongs :=
  recordedTables_inverts rfl (by decide +kernel)

/-! ## Noise -/

/-- **What is activated was framed.**  Whatever is fed to the receiver, in whatever
chunks and with whatever resets: the messages the manager handles are those in valid
frames of the bytes that were taken in, one behind the other, and an image is activated
exactly when these messages contain an upload that the writer accepts. -/
theorem activated_iff_framed_upload (code : TableCode Table) {callbacks : Callbacks}
    (quiet : callbacks.Quiet) (buffer : FrameBuffer) (behind : Nat → Memory) (target : Target)
    (sendProgress : Bool) (writer : FlashWriter) (calls : List StreamCall) :
    ∃ after blocks, (empty buffer).run .bits64 callbacks calls = some after ∧
      DisjointFrames frameFraming after.appended blocks
        (after.appended.length - after.getBufferUsage) ∧
      blocks.map Found.payload = payloadsOf after.invocations ∧
      (.activate true ∈ callsOf ((new target sendProgress writer).run
          (received code behind (payloadsOf after.invocations))).trace ↔
        ∃ front later, received code behind (blocks.map Found.payload) = front ++ later ∧
          EndsInUpload (new target sendProgress writer) front) := by
  obtain ⟨after, ran, inRange, tracks, _⟩ :=
    run_tracks quiet calls (Nat.zero_le _) (@Tracks.empty anyLoss buffer)
  obtain ⟨blocks, payloads, frames⟩ := tracks.disjointFrames
  rw [live_length inRange] at frames
  refine ⟨after, blocks, ran, frames, payloads, ?_⟩
  rw [payloads]
  exact activated_iff_endsInUpload
    (show (new target sendProgress writer).status ≠ .receiving from nofun) nofun _

/-- An update in noise, with a frame cut in two and a reset in front of the last one. -/
def noisyUpdate : List StreamCall :=
  match recordings.map fun recording => encodeFrame 0 recording.2 with
  | [opening, first, second, closing] =>
      [.feed (some ([0xFF, 0xAA, 0xBB, 0xCC] ++ opening)), .feed (some (first ++ second.take 10)),
        .feed (some (second.drop 10 ++ [0xEE])), .reset, .feed (some (closing ++ [0xEE]))]
  | _ => []

theorem activated_iff_framed_upload_noise :
    ∃ after blocks, (empty .zeros).run .bits64 listeningCallbacks noisyUpdate = some after ∧
      DisjointFrames frameFraming after.appended blocks
        (after.appended.length - after.getBufferUsage) ∧
      blocks.map Found.payload = recordings.map Prod.snd ∧
      ∃ front later, received otaCode (fun _ _ => 0) (recordings.map Prod.snd) = front ++ later ∧
        EndsInUpload (new .stm32 false willingWriter) front := by
  obtain ⟨after, blocks, ran, frames, delivered, activates⟩ :=
    activated_iff_framed_upload otaCode listeningCallbacks_quiet .zeros (fun _ _ => 0) .stm32
      false willingWriter noisyUpdate
  have payloads : ((empty .zeros).run .bits64 listeningCallbacks noisyUpdate).map
      (fun after => payloadsOf after.invocations) = some (recordings.map Prod.snd) := by
    decide +kernel
  rw [ran, Option.map_some, Option.some_inj] at payloads
  rw [delivered, payloads] at activates
  exact ⟨after, blocks, ran, frames, delivered.trans payloads,
    activates.mp (by decide +kernel)⟩

/-! ## Updates -/

variable {code : TableCode Table}

theorem feeds_deliver {callbacks : Callbacks} (quiet : callbacks.Quiet)
    (registered : callbacks.frameRegistered = true) (sizeType : SizeType) (buffer : FrameBuffer)
    (packets : List Packet) (small : ∀ packet ∈ packets, packet.2.length ≤ kMaxFrameSize)
    (chunks : List Bytes) (cut : chunks.flatten = encodePackets packets)
    (fits : FitsWhenFed sizeType callbacks (empty buffer) chunks) :
    ∃ after, (empty buffer).run sizeType callbacks (feeds chunks) = some after ∧
      payloadsOf after.invocations = packets.map Prod.snd := by
  have aligned : Aligned [] packets (chunks.flatten ++ []) (empty buffer) :=
    ⟨Nat.zero_le _, small, rfl, (List.append_nil _).trans cut⟩
  have waiting : Waiting packets (empty buffer) := by
    intro packet _
    change 0 < (encodeFrame packet.1 packet.2).length
    rw [encodeFrame_length, Nat.add_assoc]
    exact Nat.lt_of_lt_of_le (by decide) (Nat.le_add_right kHeaderSize _)
  obtain ⟨after, delivered, left, ran, rfl, aligned, waiting⟩ :=
    aligned.feeds quiet registered sizeType chunks waiting fits
  have nothing : left = [] := by
    cases left with
    | nil => rfl
    | cons packet left =>
        have short := waiting packet rfl
        have buffered := congrArg List.length aligned.split
        rw [List.append_nil, encodePackets_cons, List.length_append] at buffered
        omega
  subst nothing
  refine ⟨after, ran, ?_⟩
  rw [aligned.invocations_eq, List.nil_append, List.append_nil, deliveries, payloadsOf,
    List.filterMap_map]
  exact congrFun (@List.filterMap_eq_map _ _ Prod.snd) delivered

/-- Of the frames on a clean line, which other endpoints use too, the manager handles
what was built for it, in order and each once. -/
theorem received_stream (inverts : code.Inverts format Belongs) {callbacks : Callbacks}
    (quiet : callbacks.Quiet) (registered : callbacks.frameRegistered = true)
    (sizeType : SizeType) (buffer : FrameBuffer) (behind : Nat → Memory)
    (calls : List BuilderCall) (packets : List Packet)
    (small : ∀ packet ∈ packets, packet.2.length ≤ kMaxFrameSize)
    (carried : (packets.map Prod.snd).filter Identified =
      calls.map fun call => code.finish call.build.1 call.build.2)
    (line : List Bytes) (cut : line.flatten = encodePackets packets)
    (fits : FitsWhenFed sizeType callbacks (empty buffer) line) :
    ∃ after, (empty buffer).run sizeType callbacks (feeds line) = some after ∧
      received code behind (payloadsOf after.invocations) =
        calls.filterMap BuilderCall.meaning := by
  obtain ⟨after, ran, payloads⟩ :=
    feeds_deliver quiet registered sizeType buffer packets small line cut fits
  refine ⟨after, ran, ?_⟩
  rw [payloads, received_eq inverts behind _ ?_ calls carried]
  intro payload member
  obtain ⟨packet, sent, rfl⟩ := List.mem_map.mp member
  exact small packet sent

def updateCalls (target : Target) (firmwareSize firmwareCrc32 : UInt32)
    (versionString : Option String) (chunks : List Bytes) : List BuilderCall :=
  .begin target firmwareSize firmwareCrc32 versionString (UInt16.ofNat chunks.length) ::
    chunks.mapIdx (fun index chunk =>
      .data target (UInt16.ofNat index) (some chunk) chunk.length) ++
    [.end target]

theorem isUpload_updateCalls (target : Target) (firmwareSize firmwareCrc32 : UInt32)
    (versionString : Option String) (chunks : List Bytes) :
    IsUpload firmwareSize firmwareCrc32 chunks
      ((updateCalls target firmwareSize firmwareCrc32 versionString chunks).filterMap
        BuilderCall.meaning) := by
  refine ⟨.beginMessage ⟨target, firmwareSize, firmwareCrc32, UInt16.ofNat chunks.length⟩,
    (chunks.mapIdx fun index chunk => BuilderCall.data target (UInt16.ofNat index) (some chunk)
      chunk.length).filterMap BuilderCall.meaning, .endMessage ⟨target⟩, ?_, rfl, ?_, trivial⟩
  · rw [updateCalls, List.filterMap_append, List.filterMap_cons]
    rfl
  · rw [Carry, List.map_filterMap, List.mapIdx_eq_zipIdx_map, List.mapIdx_eq_zipIdx_map,
      List.filterMap_map, ← List.filterMap_eq_map]
    refine List.filterMap_congr fun numbered _ => ?_
    obtain ⟨chunk, index⟩ := numbered
    have whole : (createVector (some chunk) chunk.length).getD [] = chunk := by
      cases chunk with
      | nil => rfl
      | cons byte rest => exact List.take_length
    exact congrArg (fun data => some (some (UInt16.ofNat index, data))) whole

/-- **An update arrives** over a line that other endpoints use too: once the frames of
the builders' messages have been fed, among any other frames and in any chunks that fit,
a willing writer has been given the chunks and has activated the image, and the reports
are those of an upload. -/
theorem update_arrives (inverts : code.Inverts format Belongs) {callbacks : Callbacks}
    (quiet : callbacks.Quiet) (registered : callbacks.frameRegistered = true)
    (sizeType : SizeType) (buffer : FrameBuffer) (behind : Nat → Memory) (manager : OtaManager)
    (idle : manager.status = .idle) (willing : ∀ turn, manager.writer.answers turn = true)
    (target : Target) (firmwareSize firmwareCrc32 : UInt32) (versionString : Option String)
    (positive : firmwareSize ≠ 0) (allowed : firmwareSize ≤ manager.writer.maxFirmwareSizes 0)
    (chunks : List Bytes) (count : chunks.length ≤ 65535) (filled : ∀ chunk ∈ chunks, chunk ≠ [])
    (packets : List Packet) (small : ∀ packet ∈ packets, packet.2.length ≤ kMaxFrameSize)
    (carried : (packets.map Prod.snd).filter Identified =
      (updateCalls target firmwareSize firmwareCrc32 versionString chunks).map fun call =>
        code.finish call.build.1 call.build.2)
    (line : List Bytes) (cut : line.flatten = encodePackets packets)
    (fits : FitsWhenFed sizeType callbacks (empty buffer) line) :
    ∃ after, (empty buffer).run sizeType callbacks (feeds line) = some after ∧
      let updated := manager.run (received code behind (payloadsOf after.invocations))
      updated.status = .rebooting ∧
      callsOf updated.trace = callsOf manager.trace ++
        ([.maxFirmwareSize (manager.writer.maxFirmwareSizes 0), .begin firmwareSize true] ++
          chunkWrites chunks ++ [.finish true, .verify firmwareCrc32 true, .activate true]) ∧
      reportsOf updated.trace = reportsOf manager.trace ++
        if manager.sendProgress then uploadReports manager.target chunks.length else [] := by
  obtain ⟨after, ran, messages⟩ := received_stream inverts quiet registered sizeType buffer behind
    _ packets small carried line cut fits
  obtain ⟨opening, data, closing, upload, announces, carry, isEnd⟩ :=
    isUpload_updateCalls target firmwareSize firmwareCrc32 versionString chunks
  have opened := handle_opening idle willing positive allowed announces
  have uploading := run_chunks opened (Nat.le_refl _) count filled carry
  obtain ⟨status, performed⟩ := uploading.finish isEnd
  refine ⟨after, ran, ?_⟩
  rw [messages, upload, run_snoc]
  exact ⟨status, performed.calls_eq, performed.reports_eq⟩

/-- An update of two chunks, with a heart beat of the power stage between them. -/
def sharedLine : List Packet :=
  (recordings.map fun recording => (0, recording.2)).insertIdx 2 (7, heartBeatEnvelope)

theorem update_arrives_on_shared_line :
    ∃ after, (empty .zeros).run .bits32 listeningCallbacks (feeds [encodePackets sharedLine]) =
        some after ∧
      let updated := (new .stm32 true willingWriter).run
        (received otaCode (fun _ _ => 0xEE) (payloadsOf after.invocations))
      updated.status = .rebooting ∧
      callsOf updated.trace = [.maxFirmwareSize 1024, .begin 2 true, .writeChunk 0 [0xAB] true,
        .writeChunk 1 [0xCD] true, .finish true, .verify 0x12345678 true, .activate true] ∧
      reportsOf updated.trace = uploadReports .stm32 2 :=
  update_arrives otaCode_inverts listeningCallbacks_quiet rfl .bits32 .zeros
    (fun _ _ => 0xEE) (new .stm32 true willingWriter) rfl (fun _ => rfl) .stm32 2 0x12345678 none
    (by decide) (by decide) [[0xAB], [0xCD]] (by decide) (by decide) sharedLine (by decide)
    (by decide +kernel) [encodePackets sharedLine] (List.flatten_singleton)
    ⟨by decide +kernel, fun _ _ => trivial⟩

end OtaEndpoint

end Libcomm
