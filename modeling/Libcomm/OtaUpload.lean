import Libcomm.OtaProtocol
import Mathlib.Data.List.Induction

/-!
# A complete upload

What an idle manager does when a begin, the announced chunks in order and an end
arrive and the writer accepts everything: the calls of the writer and the
progress reports are determined, whatever earlier sessions have left in the
counters.
-/

set_option autoImplicit false

namespace Libcomm

open OtaManager

/-! ## The inputs and the reports of an upload -/

def OtaInput.IsEnd : OtaInput → Prop
  | .endMessage _ => True
  | .endValues => True
  | _ => False

/-- Data inputs that carry the chunks, numbered from zero. -/
def Carry (inputs : List OtaInput) (chunks : List Bytes) : Prop :=
  inputs.map OtaInput.chunk = chunks.mapIdx fun index chunk => some (UInt16.ofNat index, chunk)

/-- A begin, the chunks in order and an end, each in either overload. -/
def IsUpload (firmwareSize firmwareCrc32 : UInt32) (chunks : List Bytes)
    (inputs : List OtaInput) : Prop :=
  ∃ opening data closing, inputs = opening :: data ++ [closing] ∧
    opening.announcement = some ⟨firmwareSize, firmwareCrc32, UInt16.ofNat chunks.length⟩ ∧
    Carry data chunks ∧ closing.IsEnd

def uploadReport (target : Target) (total : Nat) (status : OtaStatus) (received : Nat) :
    ProgressReport :=
  ⟨target, status, UInt16.ofNat received, UInt16.ofNat total, none⟩

/-- The last chunk and every fiftieth are reported. -/
def reportedCounts (total received : Nat) : List Nat :=
  (List.range' 1 received).filter fun count => count = total ∨ kProgressReportInterval ∣ count

theorem reportedCounts_succ (total received : Nat) :
    reportedCounts total (received + 1) = reportedCounts total received ++
      if received + 1 = total ∨ kProgressReportInterval ∣ received + 1 then [received + 1]
      else [] := by
  rw [reportedCounts, List.range'_1_concat, List.filter_append, Nat.add_comm 1 received]
  by_cases due : received + 1 = total ∨ kProgressReportInterval ∣ received + 1 <;>
    simp [reportedCounts, due]

def receivingReports (target : Target) (total received : Nat) : List ProgressReport :=
  [uploadReport target total .preparing 0, uploadReport target total .receiving 0] ++
    (reportedCounts total received).map (uploadReport target total .receiving)

theorem receivingReports_succ (target : Target) (total received : Nat) :
    receivingReports target total (received + 1) = receivingReports target total received ++
      if received + 1 = total ∨ kProgressReportInterval ∣ received + 1 then
        [uploadReport target total .receiving (received + 1)]
      else [] := by
  rw [receivingReports, receivingReports, reportedCounts_succ, List.map_append, List.append_assoc]
  split <;> rfl

def uploadReports (target : Target) (total : Nat) : List ProgressReport :=
  receivingReports target total total ++
    [uploadReport target total .verifying total, uploadReport target total .applying total,
      uploadReport target total .rebooting total]

namespace OtaManager

/-! ## Calls and reports since a start -/

/-- From a manager to a later one the writer has accepted the given calls, the
given reports were due, and the writer will go on accepting. -/
structure Performed (start : OtaManager) (calls : List WriterCall)
    (reports : List ProgressReport) (manager : OtaManager) : Prop where
  target : manager.target = start.target
  sendProgress : manager.sendProgress = start.sendProgress
  willing : ∀ turn, manager.writer.answers turn = true
  calls_eq : callsOf manager.trace = callsOf start.trace ++ calls
  reports_eq : reportsOf manager.trace =
    reportsOf start.trace ++ if start.sendProgress then reports else []

namespace Performed

variable {start manager after : OtaManager} {calls : List WriterCall}
  {reports : List ProgressReport}

theorem refl (willing : ∀ turn, start.writer.answers turn = true) : Performed start [] [] start :=
  ⟨rfl, rfl, willing, (List.append_nil _).symm, by simp⟩

theorem input (performed : Performed start calls reports manager) (input : OtaInput) :
    Performed start calls reports (manager.record (.input input)) := by
  refine ⟨performed.target, performed.sendProgress, performed.willing, ?_, ?_⟩
  · rw [record, callsOf_append, performed.calls_eq]
    exact List.append_nil _
  · rw [record, reportsOf_append, performed.reports_eq]
    exact List.append_nil _

theorem answer_eq (performed : Performed start calls reports manager) {call : Bool → WriterCall}
    {answer : Bool} (asked : Asked manager call answer after) : answer = true := by
  have first := performed.willing 0
  cases asked
  exact first

theorem asked (performed : Performed start calls reports manager) {call : Bool → WriterCall}
    {answer : Bool} (asked : Asked manager call answer after) :
    Performed start (calls ++ [call true]) reports after := by
  have trace := asked.trace_eq
  rw [performed.answer_eq asked] at trace
  obtain ⟨_, rfl⟩ := Prod.mk.inj asked.result
  refine ⟨performed.target, performed.sendProgress, fun turn => performed.willing (turn + 1),
    ?_, ?_⟩
  · rw [trace, callsOf_append, performed.calls_eq, List.append_assoc]
    rfl
  · rw [trace, reportsOf_append, performed.reports_eq]
    exact List.append_nil _

theorem queried (performed : Performed start calls reports manager) :
    Performed start (calls ++ [.maxFirmwareSize manager.maxFirmwareSize.1]) reports
      manager.maxFirmwareSize.2 := by
  refine ⟨performed.target, performed.sendProgress, performed.willing, ?_, ?_⟩
  · rw [maxFirmwareSize, record, callsOf_append, performed.calls_eq, List.append_assoc]
    rfl
  · rw [maxFirmwareSize, record, reportsOf_append, performed.reports_eq]
    exact List.append_nil _

theorem of_trace (performed : Performed start calls reports manager)
    (target : after.target = manager.target)
    (sendProgress : after.sendProgress = manager.sendProgress)
    (writer : after.writer = manager.writer) (trace : after.trace = manager.trace) :
    Performed start calls reports after :=
  ⟨target.trans performed.target, sendProgress.trans performed.sendProgress,
    writer ▸ performed.willing, trace ▸ performed.calls_eq, trace ▸ performed.reports_eq⟩

theorem sendReport (performed : Performed start calls reports manager)
    (errorMessage : Option String) :
    Performed start calls
      (reports ++ [⟨start.target, manager.status, manager.receivedChunks, manager.totalChunks,
        errorMessage⟩])
      (manager.sendReport errorMessage) := by
  rw [sendReport_eq]
  refine ⟨performed.target, performed.sendProgress, performed.willing, ?_, ?_⟩
  · rw [callsOf_append, performed.calls_eq, reportEvents]
    split <;> simp [callsOf, Event.call?]
  · rw [reportsOf_append, performed.reports_eq, reportEvents, performed.sendProgress,
      performed.target]
    split <;> simp [reportsOf, Event.report?]

theorem transitionTo (performed : Performed start calls reports manager) (newStatus : OtaStatus)
    (errorMessage : Option String) :
    Performed start calls
      (reports ++ [⟨start.target, newStatus, manager.receivedChunks, manager.totalChunks,
        errorMessage⟩])
      (manager.transitionTo newStatus errorMessage) :=
  @sendReport start { manager with status := newStatus } calls reports
    (performed.of_trace rfl rfl rfl rfl) errorMessage

end Performed

/-! ## The upload, input by input -/

/-- An upload of `total` chunks under way: the begin and the given chunks have
been accepted. -/
structure Uploading (start : OtaManager) (firmwareSize firmwareCrc32 : UInt32) (total : Nat)
    (chunks : List Bytes) (manager : OtaManager) : Prop where
  status : manager.status = .receiving
  expectedCrc32 : manager.expectedCrc32 = firmwareCrc32
  totalChunks : manager.totalChunks = UInt16.ofNat total
  receivedChunks : manager.receivedChunks = UInt16.ofNat chunks.length
  performed : Performed start
    ([.maxFirmwareSize (start.writer.maxFirmwareSizes 0), .begin firmwareSize true] ++
      chunkWrites chunks)
    (receivingReports start.target total chunks.length) manager

section Upload
variable {start manager : OtaManager} {firmwareSize firmwareCrc32 : UInt32} {total : Nat}
  {chunks : List Bytes}

theorem handle_opening (idle : start.status = .idle)
    (willing : ∀ turn, start.writer.answers turn = true) (positive : firmwareSize ≠ 0)
    (fits : firmwareSize ≤ start.writer.maxFirmwareSizes 0) {opening : OtaInput}
    (announces : opening.announcement =
      some ⟨firmwareSize, firmwareCrc32, UInt16.ofNat total⟩) :
    Uploading start firmwareSize firmwareCrc32 total [] (start.handle opening) := by
  rw [handle_begin start announces]
  have entered := (Performed.refl willing).input opening
  set manager := start.record (.input opening)
  have ready : manager.ready = manager := if_neg (not_not.mpr idle)
  have fit : ¬ (firmwareSize = 0 ∨ firmwareSize > manager.maxFirmwareSize.1) :=
    fun unfit => unfit.elim positive (UInt32.not_lt.mpr fits)
  set opened := manager.maxFirmwareSize.2.announce firmwareCrc32 (UInt16.ofNat total)
  have announced : Performed start [.maxFirmwareSize (start.writer.maxFirmwareSizes 0)] [] opened :=
    entered.queried.of_trace rfl rfl rfl rfl
  have preparing := announced.transitionTo .preparing none
  obtain ⟨answer, after, asked⟩ := ask_asked (opened.transitionTo .preparing none)
    (.begin firmwareSize)
  cases preparing.answer_eq asked
  have same := (transitionTo_same opened .preparing none).trans asked.same
  have receiving := (preparing.asked asked).transitionTo .receiving none
  rw [same.receivedChunks, same.totalChunks] at receiving
  rw [handleBegin_eq, ready, if_neg fit, asked.result]
  have final := transitionTo_same after .receiving none
  exact ⟨final.status, final.expectedCrc32.trans same.expectedCrc32,
    final.totalChunks.trans same.totalChunks, final.receivedChunks.trans same.receivedChunks,
    receiving⟩

theorem handle_end (manager : OtaManager) {input : OtaInput} (isEnd : input.IsEnd) :
    manager.handle input = (manager.record (.input input)).handleEnd := by
  cases input with
  | endMessage _ => rfl
  | endValues => rfl
  | _ => exact absurd isEnd id

theorem due_iff {received : Nat} (room : received ≤ total) (count : total ≤ 65535) :
    (UInt16.ofNat received = UInt16.ofNat total ∨
      (UInt16.ofNat received).toNat % kProgressReportInterval = 0) ↔
    received = total ∨ kProgressReportInterval ∣ received := by
  have same : (UInt16.ofNat received).toNat = received :=
    UInt16.toNat_ofNat_of_lt' (Nat.lt_of_le_of_lt room (Nat.lt_succ_of_le count))
  have all : (UInt16.ofNat total).toNat = total :=
    UInt16.toNat_ofNat_of_lt' (Nat.lt_succ_of_le count)
  rw [← UInt16.toNat_inj, same, all, Nat.dvd_iff_mod_eq_zero]

theorem Uploading.next (uploading : Uploading start firmwareSize firmwareCrc32 total chunks manager)
    (room : chunks.length < total) (count : total ≤ 65535) {input : OtaInput} {chunk : Bytes}
    (carries : input.chunk = some (UInt16.ofNat chunks.length, chunk)) (nonEmpty : chunk ≠ []) :
    Uploading start firmwareSize firmwareCrc32 total (chunks ++ [chunk])
      (manager.handle input) := by
  obtain ⟨data, rfl, handled⟩ := manager.handle_chunk carries nonEmpty
  rw [handled]
  have entered := uploading.performed.input input
  have status : (manager.record (.input input)).status = .receiving := uploading.status
  have index : (manager.record (.input input)).receivedChunks = UInt16.ofNat chunks.length :=
    uploading.receivedChunks
  have outcome := (manager.record (.input input)).handleData_outcome
    (UInt16.ofNat chunks.length) data
  generalize OtaManager.handleData _ _ _ = after at outcome ⊢
  cases outcome with
  | ignored other => exact absurd status other
  | misplaced _ other => exact absurd index.symm other
  | empty _ _ nothing => exact absurd nothing nonEmpty
  | refused _ _ _ asked => exact absurd (entered.answer_eq asked) Bool.false_ne_true
  | @written after _ _ _ asked =>
      have same := asked.same
      have received : after.countChunk.receivedChunks =
          UInt16.ofNat (chunks ++ [data.getD []]).length := by
        rw [countChunk, same.receivedChunks, index, List.length_append]
        exact (UInt16.ofNat_add _ _).symm
      have all : after.totalChunks = UInt16.ofNat total :=
        same.totalChunks.trans uploading.totalChunks
      have receiving : after.countChunk.status = .receiving := same.status.trans status
      have crc : after.countChunk.expectedCrc32 = firmwareCrc32 :=
        same.expectedCrc32.trans uploading.expectedCrc32
      have counted : Performed start _ _ after.countChunk :=
        (entered.asked asked).of_trace rfl rfl rfl rfl
      rw [List.append_assoc, ← chunkWrites_snoc] at counted
      have length : (chunks ++ [data.getD []]).length = chunks.length + 1 := List.length_append
      have due := @due_iff total (chunks.length + 1) room count
      rw [← length, ← received, ← all] at due
      have reports := receivingReports_succ start.target total chunks.length
      by_cases reported : chunks.length + 1 = total ∨ kProgressReportInterval ∣ chunks.length + 1
      · rw [if_pos reported] at reports
        rw [if_pos (due.mpr (length ▸ reported))]
        have sent := sendReport_same after.countChunk none
        have told := counted.sendReport none
        rw [receiving, received, show after.countChunk.totalChunks = _ from all] at told
        refine ⟨sent.status.trans receiving, sent.expectedCrc32.trans crc,
          sent.totalChunks.trans all, sent.receivedChunks.trans received, ?_⟩
        rw [length, reports]
        rw [length] at told
        exact told
      · rw [if_neg reported, List.append_nil] at reports
        rw [if_neg fun isDue => reported (length ▸ due.mp isDue)]
        refine ⟨receiving, crc, all, received, ?_⟩
        rw [length, reports]
        exact counted

/-- The chunks of an upload, by induction from the last one. -/
theorem run_chunks (started : Uploading start firmwareSize firmwareCrc32 total [] manager)
    (room : chunks.length ≤ total) (count : total ≤ 65535) (filled : ∀ chunk ∈ chunks, chunk ≠ [])
    {inputs : List OtaInput} (carry : Carry inputs chunks) :
    Uploading start firmwareSize firmwareCrc32 total chunks (manager.run inputs) := by
  induction chunks using List.reverseRecOn generalizing inputs with
  | nil =>
      cases List.map_eq_nil_iff.mp carry
      exact started
  | append_singleton chunks chunk ih =>
      rw [Carry, List.mapIdx_concat] at carry
      obtain ⟨front, back, rfl, earlier, last⟩ := List.map_eq_append_iff.mp carry
      obtain ⟨input, rfl, carries⟩ := List.map_eq_singleton_iff.mp last
      rw [List.length_append] at room
      have uploading := ih (Nat.le_of_succ_le room)
        (fun other member => filled other (List.mem_append_left _ member)) earlier
      rw [run_snoc]
      exact uploading.next room count carries
        (filled chunk (List.mem_append_right _ (List.mem_singleton_self _)))

theorem Uploading.finish
    (uploading : Uploading start firmwareSize firmwareCrc32 chunks.length chunks manager)
    {closing : OtaInput} (isEnd : closing.IsEnd) :
    (manager.handle closing).status = .rebooting ∧
    Performed start
      ([.maxFirmwareSize (start.writer.maxFirmwareSizes 0), .begin firmwareSize true] ++
        chunkWrites chunks ++ [.finish true, .verify firmwareCrc32 true, .activate true])
      (uploadReports start.target chunks.length) (manager.handle closing) := by
  rw [handle_end manager isEnd]
  have entered := uploading.performed.input closing
  have status : (manager.record (.input closing)).status = .receiving := uploading.status
  have counts : (manager.record (.input closing)).receivedChunks =
      (manager.record (.input closing)).totalChunks :=
    uploading.receivedChunks.trans uploading.totalChunks.symm
  have outcome := (manager.record (.input closing)).handleEnd_outcome
  generalize OtaManager.handleEnd _ = after at outcome ⊢
  cases outcome with
  | ignored other => exact absurd status other
  | miscounted _ other => exact absurd counts other
  | unfinished _ _ finish => exact absurd (entered.answer_eq finish) Bool.false_ne_true
  | unverified _ _ finish verify =>
      have verifying := (entered.asked finish).transitionTo .verifying none
      exact absurd (verifying.answer_eq verify) Bool.false_ne_true
  | inactive _ _ finish verify activate =>
      have verifying := (entered.asked finish).transitionTo .verifying none
      have rebooting := ((verifying.asked verify).transitionTo .applying none).transitionTo
        .rebooting none
      exact absurd (rebooting.answer_eq activate) Bool.false_ne_true
  | @activated finished verified after _ _ finish verify activate =>
      have verifying := (entered.asked finish).transitionTo .verifying none
      have applying := (verifying.asked verify).transitionTo .applying none
      have activated := (applying.transitionTo .rebooting none).asked activate
      have finishedCount := finish.same.receivedChunks.trans uploading.receivedChunks
      have finishedTotal := finish.same.totalChunks.trans uploading.totalChunks
      have afterVerifying := transitionTo_same finished .verifying none
      have verifiedCount := (verify.same.receivedChunks.trans afterVerifying.receivedChunks).trans
        finishedCount
      have verifiedTotal := (verify.same.totalChunks.trans afterVerifying.totalChunks).trans
        finishedTotal
      have afterApplying := transitionTo_same verified .applying none
      have rebootingStatus := (transitionTo_same (verified.transitionTo .applying none) .rebooting
        none).status
      refine ⟨activate.same.status.trans rebootingStatus, ?_⟩
      rw [finishedCount, finishedTotal, verifiedCount, verifiedTotal,
        afterApplying.receivedChunks.trans verifiedCount,
        afterApplying.totalChunks.trans verifiedTotal,
        show (manager.record (.input closing)).expectedCrc32 = _ from uploading.expectedCrc32]
        at activated
      simpa only [uploadReports, uploadReport, List.append_assoc, List.cons_append,
        List.nil_append] using activated

end Upload

/-- **A complete upload succeeds**, from any idle manager whose writer will accept
everything: the size limit is asked for, and then the calls are a begin, the
chunks, a finish, a verification and an activation, with the reports that belong
to them. -/
theorem upload_succeeds (manager : OtaManager) (idle : manager.status = .idle)
    (willing : ∀ turn, manager.writer.answers turn = true) (firmwareSize firmwareCrc32 : UInt32)
    (positive : firmwareSize ≠ 0) (fits : firmwareSize ≤ manager.writer.maxFirmwareSizes 0)
    (chunks : List Bytes) (count : chunks.length ≤ 65535) (filled : ∀ chunk ∈ chunks, chunk ≠ [])
    (inputs : List OtaInput) (upload : IsUpload firmwareSize firmwareCrc32 chunks inputs) :
    callsOf (manager.run inputs).trace = callsOf manager.trace ++
      ([.maxFirmwareSize (manager.writer.maxFirmwareSizes 0), .begin firmwareSize true] ++
        chunkWrites chunks ++ [.finish true, .verify firmwareCrc32 true, .activate true]) ∧
    reportsOf (manager.run inputs).trace = reportsOf manager.trace ++
      (if manager.sendProgress then uploadReports manager.target chunks.length else []) ∧
    (manager.run inputs).status = .rebooting := by
  obtain ⟨opening, data, closing, rfl, announces, carry, isEnd⟩ := upload
  have opened := handle_opening idle willing positive fits announces
  have uploading := run_chunks opened (Nat.le_refl _) count filled carry
  obtain ⟨status, performed⟩ := uploading.finish isEnd
  have run : manager.run (opening :: data ++ [closing]) =
      ((manager.handle opening).run data).handle closing := run_snoc _ _ _
  rw [run]
  exact ⟨performed.calls_eq, performed.reports_eq, status⟩

def interruptedUpload : OtaManager :=
  (new .stm32 true willingWriter).run
    [.beginValues 4 0 2, .dataValues 0 (some [7]), .dataValues 5 (some [7])]

def threeChunks : List OtaInput :=
  [.beginMessage ⟨.stm32, 4, 0x12345678, 3⟩, .dataMessage ⟨.stm32, 0, some [1, 2]⟩,
    .dataValues 1 (some [3]), .dataMessage ⟨.stm32, 2, some [4]⟩, .endValues]

/-- The first two chunks are not reported one by one. -/
theorem upload_succeeds_three_chunks :
    callsOf (interruptedUpload.run threeChunks).trace = callsOf interruptedUpload.trace ++
      [.maxFirmwareSize 1024, .begin 4 true, .writeChunk 0 [1, 2] true, .writeChunk 1 [3] true,
        .writeChunk 2 [4] true, .finish true, .verify 0x12345678 true, .activate true] ∧
    reportsOf (interruptedUpload.run threeChunks).trace = reportsOf interruptedUpload.trace ++
      [⟨.stm32, .preparing, 0, 3, none⟩, ⟨.stm32, .receiving, 0, 3, none⟩,
        ⟨.stm32, .receiving, 3, 3, none⟩, ⟨.stm32, .verifying, 3, 3, none⟩,
        ⟨.stm32, .applying, 3, 3, none⟩, ⟨.stm32, .rebooting, 3, 3, none⟩] ∧
    (interruptedUpload.run threeChunks).status = .rebooting := by
  have upload : IsUpload 4 0x12345678 [[1, 2], [3], [4]] threeChunks :=
    ⟨_, [.dataMessage ⟨.stm32, 0, some [1, 2]⟩, .dataValues 1 (some [3]),
      .dataMessage ⟨.stm32, 2, some [4]⟩], _, rfl, rfl, rfl, trivial⟩
  exact upload_succeeds interruptedUpload rfl (fun _ => rfl) 4 0x12345678 (by decide) (by decide)
    [[1, 2], [3], [4]] (by decide) (by decide) threeChunks upload

end OtaManager

end Libcomm
