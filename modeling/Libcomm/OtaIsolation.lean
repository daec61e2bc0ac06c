import Libcomm.OtaProtocol

/-!
# Isolation of update sessions

A manager with any past and a manager that has just been constructed are given
the same begin message, the same messages after it and the same answers of the
writer.  The handlers never read the history, and a manager may differ in fields
that no handler will read before it has set them.  What remains are the counters
that an earlier session has left behind, and the one report in which they show.
-/

set_option autoImplicit false

namespace Libcomm

namespace OtaManager

/-! ## Fields left behind -/

/-- The managers differ at most in the checksum and in the counter, and there
only while no session and no report reads them. -/
def Alike (first second : OtaManager) : Prop :=
  ∃ crc received,
    second = { first with expectedCrc32 := crc, receivedChunks := received } ∧
    (first.status = .receiving → second = first) ∧
    (first.sendProgress = true → received = first.receivedChunks)

theorem reportEvents_of_leftovers {manager : OtaManager} {crc : UInt32} {received : UInt16}
    (reported : manager.sendProgress = true → received = manager.receivedChunks)
    (status : OtaStatus) (errorMessage : Option String) :
    { manager with expectedCrc32 := crc, receivedChunks := received }.reportEvents status
        errorMessage = manager.reportEvents status errorMessage := by
  by_cases bound : manager.sendProgress = true
  · obtain rfl := reported bound
    rfl
  · simp only [reportEvents, if_neg bound]

/-- A begin message of an acceptable size sets every field a session has left. -/
theorem handleBegin_of_fits {first second : OtaManager} {firmwareSize : UInt32} {crc : UInt32}
    {total received : UInt16}
    (leftovers : second.ready = { first.ready with
      expectedCrc32 := crc, totalChunks := total, receivedChunks := received })
    (fits : ¬ (firmwareSize = 0 ∨ firmwareSize > first.ready.maxFirmwareSize.1))
    (firmwareCrc32 : UInt32) (totalChunks : UInt16) :
    second.handleBegin firmwareSize firmwareCrc32 totalChunks =
      first.handleBegin firmwareSize firmwareCrc32 totalChunks := by
  rw [handleBegin_eq, handleBegin_eq, leftovers, if_neg fits]
  exact if_neg fits

theorem handleBegin_of_unfit {manager : OtaManager} {firmwareSize : UInt32}
    (unfit : firmwareSize = 0 ∨ firmwareSize > manager.ready.maxFirmwareSize.1)
    (firmwareCrc32 : UInt32) (totalChunks : UInt16) :
    manager.handleBegin firmwareSize firmwareCrc32 totalChunks =
      manager.ready.maxFirmwareSize.2.failIdle "Firmware too large for target" := by
  rw [handleBegin_eq, if_pos unfit]

namespace Alike
variable {first second : OtaManager}

theorem refl (manager : OtaManager) : Alike manager manager :=
  ⟨_, _, rfl, fun _ => rfl, fun _ => rfl⟩

theorem record (alike : Alike first second) (event : Event) :
    Alike (first.record event) (second.record event) := by
  obtain ⟨crc, received, rfl, session, reported⟩ := alike
  refine ⟨crc, received, rfl, fun receiving => ?_, reported⟩
  rw [session receiving]

theorem failIdle (alike : Alike first second) (errorMessage : String) :
    Alike (first.failIdle errorMessage) (second.failIdle errorMessage) := by
  obtain ⟨crc, received, rfl, _, reported⟩ := alike
  refine ⟨crc, received, ?_, fun receiving => ?_, ?_⟩
  · rw [failIdle_eq, failIdle_eq, reportEvents_of_leftovers reported]
  · rw [failIdle_eq] at receiving
    cases receiving
  · rw [failIdle_eq]
    exact reported

theorem abandon (alike : Alike first second) (errorMessage : String) :
    Alike (first.abandon errorMessage) (second.abandon errorMessage) :=
  (alike.record (.call .abort)).failIdle errorMessage

theorem maxFirmwareSize (alike : Alike first second) :
    second.maxFirmwareSize.1 = first.maxFirmwareSize.1 ∧
      Alike first.maxFirmwareSize.2 second.maxFirmwareSize.2 := by
  obtain ⟨crc, received, rfl, session, reported⟩ := alike
  refine ⟨rfl, crc, received, rfl, fun receiving => ?_, reported⟩
  rw [session receiving]

theorem ready (alike : Alike first second) : Alike first.ready second.ready := by
  have whole := alike
  obtain ⟨crc, received, rfl, _, reported⟩ := alike
  by_cases idle : first.status = .idle
  · rw [OtaManager.ready, OtaManager.ready, if_neg (not_not.mpr idle), if_neg (not_not.mpr idle)]
    exact whole
  · rw [OtaManager.ready, OtaManager.ready, if_pos idle, if_pos idle]
    exact ⟨crc, 0, rfl, fun receiving => absurd receiving (by simp [restart]), fun _ => rfl⟩

theorem handleBegin (alike : Alike first second) (firmwareSize firmwareCrc32 : UInt32)
    (totalChunks : UInt16) :
    Alike (first.handleBegin firmwareSize firmwareCrc32 totalChunks)
      (second.handleBegin firmwareSize firmwareCrc32 totalChunks) := by
  have ready := alike.ready
  obtain ⟨limit, queried⟩ := ready.maxFirmwareSize
  by_cases unfit : firmwareSize = 0 ∨ firmwareSize > first.ready.maxFirmwareSize.1
  · rw [handleBegin_of_unfit unfit, handleBegin_of_unfit (limit ▸ unfit)]
    exact queried.failIdle _
  · obtain ⟨crc, received, leftovers, _, _⟩ := ready
    rw [handleBegin_of_fits leftovers unfit]
    exact .refl _

theorem handle (alike : Alike first second) (input : OtaInput) :
    Alike (first.handle input) (second.handle input) := by
  have entered := alike.record (.input input)
  by_cases receiving : first.status = .receiving
  · obtain ⟨_, _, _, session, _⟩ := alike
    rw [session receiving]
    exact .refl _
  have status : second.status = first.status := by
    obtain ⟨_, _, rfl, _, _⟩ := alike
    rfl
  have closed : (first.record (.input input)).status ≠ .receiving := receiving
  have closedToo : (second.record (.input input)).status ≠ .receiving := status ▸ receiving
  have aborts (reason : Option String) : Alike ((first.record (.input input)).handleAbort reason)
      ((second.record (.input input)).handleAbort reason) := by
    have statusToo : (second.record (.input input)).status =
      (first.record (.input input)).status := status
    simp only [handleAbort, statusToo]
    split
    · exact entered
    · exact entered.abandon _
  cases input with
  | beginMessage _ => exact entered.handleBegin _ _ _
  | beginValues _ _ _ => exact entered.handleBegin _ _ _
  | dataMessage message =>
      simp only [OtaManager.handle, dispatch, handleDataMessage, handleData, if_pos closed,
        if_pos closedToo]
      split
      · exact entered.abandon _
      · exact entered
  | dataValues _ _ =>
      simp only [OtaManager.handle, dispatch, handleData, if_pos closed, if_pos closedToo]
      exact entered
  | endMessage _ =>
      simp only [OtaManager.handle, dispatch, handleEnd, if_pos closed, if_pos closedToo]
      exact entered
  | endValues =>
      simp only [OtaManager.handle, dispatch, handleEnd, if_pos closed, if_pos closedToo]
      exact entered
  | abortMessage _ => exact aborts _
  | abortValues _ => exact aborts _

theorem run (alike : Alike first second) (inputs : List OtaInput) :
    Alike (first.run inputs) (second.run inputs) :=
  List.foldl_rel alike fun input _ _ _ before => before.handle input

end Alike

/-! ## A new session -/

/-- From here on the manager cannot be told from one that has just been
constructed, by its reports, by the calls of its writer apart from one abort in
front, by its status or by its number of chunks after any of the messages. -/
def Isolated (manager : OtaManager) (inputs : List OtaInput) : Prop :=
  let fresh := new manager.target manager.sendProgress manager.writer
  ∀ front, front <+: inputs → front ≠ [] →
    ∃ events, (manager.run front).trace = manager.trace ++ events ∧
      reportsOf events = reportsOf (fresh.run front).trace ∧
      (callsOf events = callsOf (fresh.run front).trace ∨
        callsOf events = .abort :: callsOf (fresh.run front).trace) ∧
      (manager.run front).status = (fresh.run front).status ∧
      (manager.run front).totalChunks = (fresh.run front).totalChunks

/-- An idle manager refuses the image for its size, and an earlier session has
left counters that can be seen then. -/
def ShowsLeftovers (manager : OtaManager) (firmwareSize : UInt32) : Prop :=
  manager.status = .idle ∧
    (firmwareSize = 0 ∨ firmwareSize > manager.writer.maxFirmwareSizes 0) ∧
    (manager.totalChunks ≠ 0 ∨ manager.receivedChunks ≠ 0 ∧ manager.sendProgress = true)

def opened (manager : OtaManager) : OtaManager := { manager.ready with trace := [] }

theorem handle_begin_opened (manager : OtaManager) {opening : OtaInput}
    {announcement : Announcement} (announces : opening.announcement = some announcement) :
    manager.handle opening =
      (manager.opened.handleBegin announcement.firmwareSize announcement.firmwareCrc32
        announcement.totalChunks).graft
          (manager.trace ++ .input opening ::
            if manager.status = .idle then [] else [.call .abort]) := by
  have ready : (manager.record (.input opening)).ready =
      manager.opened.ready.graft (manager.trace ++ .input opening ::
        if manager.status = .idle then [] else [.call .abort]) := by
    by_cases idle : manager.status = .idle
    · have entered : (manager.record (.input opening)).status = .idle := idle
      simp only [opened, OtaManager.ready, idle, entered, ne_eq, not_true_eq_false, if_false,
        if_true]
      simp [graft, record, idle]
    · have entered : ¬ (manager.record (.input opening)).status = .idle := idle
      simp only [opened, OtaManager.ready, idle, entered, ne_eq, not_false_eq_true, if_true,
        if_false]
      simp [graft, record, restart]
  rw [handle_begin manager announces, handleBegin_eq, ready, ← ready_graft, ← handleBegin_eq,
    handleBegin_graft]

/-- Of an earlier session a new one finds the checksum, and the counters if the
manager was idle. -/
theorem opened_eq (manager : OtaManager) :
    manager.opened = { new manager.target manager.sendProgress manager.writer with
      expectedCrc32 := manager.expectedCrc32
      totalChunks := if manager.status = .idle then manager.totalChunks else 0
      receivedChunks := if manager.status = .idle then manager.receivedChunks else 0 } := by
  by_cases idle : manager.status = .idle
  · simp [opened, OtaManager.ready, new, idle]
  · simp [opened, OtaManager.ready, new, idle, restart, record]

theorem alike_of_hidden {manager : OtaManager} {firmwareSize : UInt32}
    (hidden : ¬ ShowsLeftovers manager firmwareSize) (firmwareCrc32 : UInt32)
    (totalChunks : UInt16) :
    Alike
      ((new manager.target manager.sendProgress manager.writer).handleBegin
        firmwareSize firmwareCrc32 totalChunks)
      (manager.opened.handleBegin firmwareSize firmwareCrc32 totalChunks) := by
  rw [opened_eq]
  by_cases unfit : firmwareSize = 0 ∨ firmwareSize > manager.writer.maxFirmwareSizes 0
  · refine Alike.handleBegin ?_ _ _ _
    by_cases idle : manager.status = .idle
    · have unseen : ¬ (manager.totalChunks ≠ 0 ∨
          manager.receivedChunks ≠ 0 ∧ manager.sendProgress = true) :=
        fun seen => hidden ⟨idle, unfit, seen⟩
      obtain ⟨total, received⟩ := not_or.mp unseen
      rw [if_pos idle, if_pos idle, not_not.mp total]
      refine ⟨_, _, rfl, fun receiving => absurd receiving (by simp [new]), fun bound => ?_⟩
      by_contra counted
      exact received ⟨counted, bound⟩
    · rw [if_neg idle, if_neg idle]
      exact ⟨_, _, rfl, fun receiving => absurd receiving (by simp [new]), fun _ => rfl⟩
  · have same := @handleBegin_of_fits (new manager.target manager.sendProgress manager.writer)
      manager.opened firmwareSize _ _ _ (congrArg OtaManager.ready manager.opened_eq) unfit
      firmwareCrc32 totalChunks
    rw [← opened_eq, same]
    exact .refl _

theorem handle_begin_unfit {manager : OtaManager} {opening : OtaInput}
    {announcement : Announcement} (announces : opening.announcement = some announcement)
    (idle : manager.status = .idle)
    (unfit : announcement.firmwareSize = 0 ∨
      announcement.firmwareSize > manager.writer.maxFirmwareSizes 0) :
    (manager.handle opening).totalChunks = manager.totalChunks ∧
      (manager.handle opening).trace = manager.trace ++
        .input opening :: .call (.maxFirmwareSize (manager.writer.maxFirmwareSizes 0)) ::
          manager.reportEvents .error (some "Firmware too large for target") := by
  have entered : (manager.record (.input opening)).ready = manager.record (.input opening) :=
    if_neg (not_not.mpr idle)
  have refused : announcement.firmwareSize = 0 ∨ announcement.firmwareSize >
      (manager.record (.input opening)).ready.maxFirmwareSize.1 := by
    rw [entered]
    exact unfit
  rw [handle_begin manager announces, handleBegin_of_unfit refused, entered, failIdle_eq]
  refine ⟨rfl, ?_⟩
  simp only [maxFirmwareSize, record, List.append_assoc]
  rfl

/-- **Exactly when a session is isolated** from everything before it, with the
same answers of the writer from its begin message on: the image is not refused
for its size, or it is but no counters of an earlier session show in the report. -/
theorem session_isolated_iff (manager : OtaManager) (opening : OtaInput)
    (announcement : Announcement) (announces : opening.announcement = some announcement)
    (continuation : List OtaInput) :
    Isolated manager (opening :: continuation) ↔
      ¬ ShowsLeftovers manager announcement.firmwareSize := by
  set fresh := new manager.target manager.sendProgress manager.writer with freshDef
  constructor
  · intro isolated shown
    obtain ⟨idle, unfit, seen⟩ := shown
    obtain ⟨events, whole, reports, _, _, total⟩ :=
      isolated [opening] ⟨continuation, rfl⟩ (List.cons_ne_nil _ _)
    obtain ⟨totalKept, trace⟩ := handle_begin_unfit announces idle unfit
    obtain ⟨freshTotal, freshTrace⟩ :=
      @handle_begin_unfit fresh opening announcement announces rfl unfit
    have none : manager.totalChunks = 0 := totalKept.symm.trans (total.trans freshTotal)
    rcases seen with some | ⟨some, bound⟩
    · exact some none
    · have added := List.append_cancel_left (trace.symm.trans whole)
      have freshReports := congrArg reportsOf freshTrace
      rw [← added, show reportsOf (fresh.run [opening]).trace = _ from freshReports] at reports
      simp only [reportEvents, bound, freshDef, new, if_true] at reports
      have shown := List.head_eq_of_cons_eq reports
      exact some (congrArg ProgressReport.receivedChunks shown)
  · intro hidden front inside nonEmpty
    obtain ⟨rest, rfl⟩ : ∃ rest, front = opening :: rest := by
      obtain ⟨_, whole⟩ := inside
      cases front with
      | nil => exact absurd rfl nonEmpty
      | cons input rest => exact ⟨rest, by rw [List.head_eq_of_cons_eq whole]⟩
    obtain ⟨crc, received, same, _, _⟩ :=
      (alike_of_hidden hidden announcement.firmwareCrc32 announcement.totalChunks).run rest
    set begun := (fresh.handleBegin announcement.firmwareSize announcement.firmwareCrc32
      announcement.totalChunks).run rest with begunDef
    have after : manager.run (opening :: rest) = _ :=
      (congrArg (run · rest) (handle_begin_opened manager announces)).trans (run_graft _ _ rest)
    have freshAfter : fresh.run (opening :: rest) = begun.graft [.input opening] :=
      (congrArg (run · rest) (handle_begin_opened fresh announces)).trans (run_graft _ _ rest)
    rw [after, freshAfter, same]
    refine ⟨.input opening :: (if manager.status = .idle then [] else [.call .abort]) ++
      begun.trace, ?_, ?_, ?_, rfl, rfl⟩
    · simp
    · by_cases idle : manager.status = .idle
      · rw [if_pos idle]
        rfl
      · rw [if_neg idle]
        rfl
    · by_cases idle : manager.status = .idle
      · rw [if_pos idle]
        exact Or.inl rfl
      · rw [if_neg idle]
        exact Or.inr rfl

def abandonedUpload : List OtaInput :=
  [.beginValues 2 0xD202EF8D 2, .dataValues 0 (some [0]), .abortValues none]

theorem session_isolated_after_abort :
    Isolated ((new .stm32 true willingWriter).run abandonedUpload)
      [.beginValues 1 0xD202EF8D 1, .dataValues 0 (some [0]), .endValues] :=
  (session_isolated_iff ((new .stm32 true willingWriter).run abandonedUpload)
    (.beginValues 1 0xD202EF8D 1) ⟨1, 0xD202EF8D, 1⟩ rfl
    [.dataValues 0 (some [0]), .endValues]).mpr fun shown => absurd shown.2.1 (by decide)

/-- An image without bytes, announced after the upload that was given up. -/
theorem session_not_isolated_after_abort :
    ¬ Isolated ((new .stm32 true willingWriter).run abandonedUpload) [.beginValues 0 0 0] := by
  intro isolated
  obtain ⟨events, _, _, _, _, total⟩ :=
    isolated [.beginValues 0 0 0] (List.prefix_refl _) (List.cons_ne_nil _ _)
  exact absurd total (by decide)

end OtaManager

end Libcomm
