import Libcomm.OtaManager

/-!
# What each handler can do

One inductive type for each handler lists its exits, with the calls of the
writer on the way and everything the handler has checked.  The later modules
split these cases and do not unfold the handlers.  No handler reads the history
that the manager carries, so a run can be grafted onto any past.
-/

set_option autoImplicit false

namespace Libcomm

namespace OtaManager

/-! ## Reports and calls of the writer -/

/-- The handlers decide on these fields; reports and calls leave them alone. -/
structure SameFields (before after : OtaManager) : Prop where
  status : after.status = before.status
  expectedCrc32 : after.expectedCrc32 = before.expectedCrc32
  totalChunks : after.totalChunks = before.totalChunks
  receivedChunks : after.receivedChunks = before.receivedChunks

theorem SameFields.trans {first second third : OtaManager} (before : SameFields first second)
    (after : SameFields second third) : SameFields first third :=
  ⟨after.status.trans before.status, after.expectedCrc32.trans before.expectedCrc32,
    after.totalChunks.trans before.totalChunks, after.receivedChunks.trans before.receivedChunks⟩

def reportEvents (manager : OtaManager) (status : OtaStatus) (errorMessage : Option String) :
    List Event :=
  if manager.sendProgress then
    [.report ⟨manager.target, status, manager.receivedChunks, manager.totalChunks, errorMessage⟩]
  else []

@[simp] theorem reportEvents_record (manager : OtaManager) (event : Event) (status : OtaStatus)
    (errorMessage : Option String) :
    (manager.record event).reportEvents status errorMessage =
      manager.reportEvents status errorMessage := rfl

theorem sendReport_eq (manager : OtaManager) (errorMessage : Option String) :
    manager.sendReport errorMessage =
      { manager with
        trace := manager.trace ++ manager.reportEvents manager.status errorMessage } := by
  unfold sendReport reportEvents
  split
  · rfl
  · rw [List.append_nil]

theorem transitionTo_eq (manager : OtaManager) (newStatus : OtaStatus)
    (errorMessage : Option String) :
    manager.transitionTo newStatus errorMessage =
      { manager with
        status := newStatus
        trace := manager.trace ++ manager.reportEvents newStatus errorMessage } :=
  sendReport_eq _ errorMessage

theorem failIdle_eq (manager : OtaManager) (errorMessage : String) :
    manager.failIdle errorMessage =
      { manager with
        status := .idle
        trace := manager.trace ++ manager.reportEvents .error (some errorMessage) } := by
  rw [failIdle, transitionTo_eq]

theorem abandon_eq (manager : OtaManager) (errorMessage : String) :
    manager.abandon errorMessage =
      { manager with
        status := .idle
        trace := manager.trace ++
          .call .abort :: manager.reportEvents .error (some errorMessage) } := by
  rw [abandon, failIdle_eq, reportEvents_record]
  simp [record]

theorem sendReport_same (manager : OtaManager) (errorMessage : Option String) :
    SameFields manager (manager.sendReport errorMessage) := by
  unfold sendReport
  split <;> exact ⟨rfl, rfl, rfl, rfl⟩

theorem transitionTo_same (manager : OtaManager) (newStatus : OtaStatus)
    (errorMessage : Option String) :
    SameFields { manager with status := newStatus } (manager.transitionTo newStatus errorMessage) :=
  sendReport_same _ errorMessage

def Asked (manager : OtaManager) (call : Bool → WriterCall) (answer : Bool)
    (after : OtaManager) : Prop :=
  manager.ask call = (answer, after)

namespace Asked
variable {manager after : OtaManager} {call : Bool → WriterCall} {answer : Bool}

theorem result (asked : Asked manager call answer after) : manager.ask call = (answer, after) :=
  asked

theorem trace_eq (asked : Asked manager call answer after) :
    after.trace = manager.trace ++ [.call (call answer)] := by
  cases asked
  rfl

theorem same (asked : Asked manager call answer after) : SameFields manager after := by
  cases asked
  exact ⟨rfl, rfl, rfl, rfl⟩

end Asked

theorem ask_asked (manager : OtaManager) (call : Bool → WriterCall) :
    ∃ answer after, Asked manager call answer after :=
  ⟨_, _, rfl⟩

/-! ## Begin -/

/-- The manager of `handleBegin` after a session in progress has been dropped. -/
def ready (manager : OtaManager) : OtaManager :=
  if manager.status ≠ .idle then manager.restart else manager

theorem ready_status (manager : OtaManager) : manager.ready.status = .idle := by
  by_cases idle : manager.status = .idle
  · rw [ready, if_neg (not_not.mpr idle), idle]
  · rw [ready, if_pos idle]
    rfl

theorem ready_maxFirmwareSize (manager : OtaManager) :
    manager.ready.maxFirmwareSize.1 = manager.writer.maxFirmwareSizes 0 := by
  unfold ready
  split <;> rfl

/-- The fields that `handleBegin` sets for a new session. -/
def announce (firmwareCrc32 : UInt32) (totalChunks : UInt16) (manager : OtaManager) : OtaManager :=
  { manager with
    expectedCrc32 := firmwareCrc32
    totalChunks := totalChunks
    receivedChunks := 0 }

inductive BeginOutcome (manager : OtaManager) (firmwareSize firmwareCrc32 : UInt32)
    (totalChunks : UInt16) : OtaManager → Prop where
  | unfit (size : firmwareSize = 0 ∨ firmwareSize > manager.ready.maxFirmwareSize.1) :
      BeginOutcome manager firmwareSize firmwareCrc32 totalChunks
        (manager.ready.maxFirmwareSize.2.failIdle "Firmware too large for target")
  | refused {after : OtaManager}
      (size : ¬ (firmwareSize = 0 ∨ firmwareSize > manager.ready.maxFirmwareSize.1))
      (asked : Asked ((manager.ready.maxFirmwareSize.2.announce firmwareCrc32
        totalChunks).transitionTo .preparing none) (.begin firmwareSize) false after) :
      BeginOutcome manager firmwareSize firmwareCrc32 totalChunks
        (after.abandon "Flash erase failed")
  | begun {after : OtaManager}
      (size : ¬ (firmwareSize = 0 ∨ firmwareSize > manager.ready.maxFirmwareSize.1))
      (asked : Asked ((manager.ready.maxFirmwareSize.2.announce firmwareCrc32
        totalChunks).transitionTo .preparing none) (.begin firmwareSize) true after) :
      BeginOutcome manager firmwareSize firmwareCrc32 totalChunks
        (after.transitionTo .receiving none)

/-- `handleBegin` after the restart, whose status check never fails. -/
theorem handleBegin_eq (manager : OtaManager) (firmwareSize firmwareCrc32 : UInt32)
    (totalChunks : UInt16) :
    manager.handleBegin firmwareSize firmwareCrc32 totalChunks =
      if firmwareSize = 0 ∨ firmwareSize > manager.ready.maxFirmwareSize.1 then
        manager.ready.maxFirmwareSize.2.failIdle "Firmware too large for target"
      else
        match ((manager.ready.maxFirmwareSize.2.announce firmwareCrc32 totalChunks).transitionTo
          .preparing none).ask (.begin firmwareSize) with
        | (false, manager) => manager.abandon "Flash erase failed"
        | (true, manager) => manager.transitionTo .receiving none :=
  if_neg (not_not.mpr manager.ready_status)

theorem handleBegin_outcome (manager : OtaManager) (firmwareSize firmwareCrc32 : UInt32)
    (totalChunks : UInt16) :
    BeginOutcome manager firmwareSize firmwareCrc32 totalChunks
      (manager.handleBegin firmwareSize firmwareCrc32 totalChunks) := by
  rw [handleBegin_eq]
  by_cases size : firmwareSize = 0 ∨ firmwareSize > manager.ready.maxFirmwareSize.1
  · rw [if_pos size]
    exact .unfit size
  · rw [if_neg size]
    obtain ⟨answer, after, asked⟩ := ask_asked ((manager.ready.maxFirmwareSize.2.announce
      firmwareCrc32 totalChunks).transitionTo .preparing none) (.begin firmwareSize)
    rw [asked.result]
    cases answer with
    | false => exact .refused size asked
    | true => exact .begun size asked

/-! ## Data -/

def countChunk (manager : OtaManager) : OtaManager :=
  { manager with receivedChunks := manager.receivedChunks + 1 }

inductive DataOutcome (manager : OtaManager) (chunkIndex : UInt16) (chunk : Bytes) :
    OtaManager → Prop where
  | ignored (status : manager.status ≠ .receiving) :
      DataOutcome manager chunkIndex chunk manager
  | misplaced (status : manager.status = .receiving)
      (index : chunkIndex ≠ manager.receivedChunks) :
      DataOutcome manager chunkIndex chunk (manager.abandon "Unexpected chunk index")
  | empty (status : manager.status = .receiving) (index : chunkIndex = manager.receivedChunks)
      (nothing : chunk = []) :
      DataOutcome manager chunkIndex chunk (manager.abandon "Empty chunk data")
  | refused {after : OtaManager} (status : manager.status = .receiving)
      (index : chunkIndex = manager.receivedChunks) (nonEmpty : chunk ≠ [])
      (asked : Asked manager (.writeChunk chunkIndex chunk) false after) :
      DataOutcome manager chunkIndex chunk (after.abandon "Flash write failed")
  | written {after : OtaManager} (status : manager.status = .receiving)
      (index : chunkIndex = manager.receivedChunks) (nonEmpty : chunk ≠ [])
      (asked : Asked manager (.writeChunk chunkIndex chunk) true after) :
      DataOutcome manager chunkIndex chunk
        (if after.countChunk.receivedChunks = after.totalChunks ∨
            after.countChunk.receivedChunks.toNat % kProgressReportInterval = 0 then
          after.countChunk.sendReport none
        else after.countChunk)

theorem handleData_outcome (manager : OtaManager) (chunkIndex : UInt16) (data : Option Bytes) :
    DataOutcome manager chunkIndex (data.getD []) (manager.handleData chunkIndex data) := by
  simp only [handleData]
  by_cases status : manager.status = .receiving
  · rw [if_neg (not_not.mpr status)]
    by_cases index : chunkIndex = manager.receivedChunks
    · rw [if_neg (not_not.mpr index)]
      by_cases empty : (data.getD []).length = 0
      · rw [if_pos empty]
        exact .empty status index (List.length_eq_zero_iff.mp empty)
      · rw [if_neg empty]
        have nonEmpty : data.getD [] ≠ [] := fun nil => empty (List.length_eq_zero_iff.mpr nil)
        obtain ⟨answer, after, asked⟩ :=
          ask_asked manager (.writeChunk chunkIndex (data.getD []))
        rw [asked.result]
        cases answer with
        | false => exact .refused status index nonEmpty asked
        | true => exact .written status index nonEmpty asked
    · rw [if_pos index]
      exact .misplaced status index
  · rw [if_pos status]
    exact .ignored status

/-! ## End -/

inductive EndOutcome (manager : OtaManager) : OtaManager → Prop where
  | ignored (status : manager.status ≠ .receiving) : EndOutcome manager manager
  | miscounted (status : manager.status = .receiving)
      (count : manager.receivedChunks ≠ manager.totalChunks) :
      EndOutcome manager (manager.abandon "Chunk count mismatch")
  | unfinished {after : OtaManager} (status : manager.status = .receiving)
      (count : manager.receivedChunks = manager.totalChunks)
      (finish : Asked manager .finish false after) :
      EndOutcome manager (after.abandon "Flash finalization failed")
  | unverified {finished after : OtaManager} (status : manager.status = .receiving)
      (count : manager.receivedChunks = manager.totalChunks)
      (finish : Asked manager .finish true finished)
      (verify : Asked (finished.transitionTo .verifying none) (.verify manager.expectedCrc32)
        false after) :
      EndOutcome manager (after.abandon "CRC32 verification failed")
  | inactive {finished verified after : OtaManager} (status : manager.status = .receiving)
      (count : manager.receivedChunks = manager.totalChunks)
      (finish : Asked manager .finish true finished)
      (verify : Asked (finished.transitionTo .verifying none) (.verify manager.expectedCrc32)
        true verified)
      (activate : Asked ((verified.transitionTo .applying none).transitionTo .rebooting none)
        .activate false after) :
      EndOutcome manager (after.abandon "Slot activation failed")
  | activated {finished verified after : OtaManager} (status : manager.status = .receiving)
      (count : manager.receivedChunks = manager.totalChunks)
      (finish : Asked manager .finish true finished)
      (verify : Asked (finished.transitionTo .verifying none) (.verify manager.expectedCrc32)
        true verified)
      (activate : Asked ((verified.transitionTo .applying none).transitionTo .rebooting none)
        .activate true after) :
      EndOutcome manager after

theorem handleEnd_outcome (manager : OtaManager) : EndOutcome manager manager.handleEnd := by
  simp only [handleEnd]
  by_cases status : manager.status = .receiving
  · rw [if_neg (not_not.mpr status)]
    by_cases count : manager.receivedChunks = manager.totalChunks
    · rw [if_neg (not_not.mpr count)]
      obtain ⟨answer, finished, finish⟩ := ask_asked manager .finish
      rw [finish.result]
      cases answer with
      | false => exact .unfinished status count finish
      | true =>
          have crc : (finished.transitionTo .verifying none).expectedCrc32 =
              manager.expectedCrc32 :=
            (transitionTo_same finished _ _).expectedCrc32.trans finish.same.expectedCrc32
          obtain ⟨answer, verified, verify⟩ := ask_asked
            (finished.transitionTo .verifying none) (.verify manager.expectedCrc32)
          simp only [crc, verify.result]
          cases answer with
          | false => exact .unverified status count finish verify
          | true =>
              obtain ⟨answer, after, activate⟩ := ask_asked
                ((verified.transitionTo .applying none).transitionTo .rebooting none) .activate
              simp only [activate.result]
              cases answer with
              | false => exact .inactive status count finish verify activate
              | true => exact .activated status count finish verify activate
    · rw [if_pos count]
      exact .miscounted status count
  · rw [if_pos status]
    exact .ignored status

/-! ## The history is never read -/

def graft (past : List Event) (manager : OtaManager) : OtaManager :=
  { manager with trace := past ++ manager.trace }

section Graft
variable (past : List Event) (manager : OtaManager)

@[simp] theorem graft_status : (manager.graft past).status = manager.status := rfl

@[simp] theorem graft_totalChunks : (manager.graft past).totalChunks = manager.totalChunks := rfl

@[simp] theorem graft_receivedChunks :
    (manager.graft past).receivedChunks = manager.receivedChunks := rfl

@[simp] theorem graft_expectedCrc32 :
    (manager.graft past).expectedCrc32 = manager.expectedCrc32 := rfl

@[simp] theorem graft_trace : (manager.graft past).trace = past ++ manager.trace := rfl

@[simp] theorem record_graft (event : Event) :
    (manager.graft past).record event = (manager.record event).graft past := by
  simp only [record, graft, List.append_assoc]

@[simp] theorem ask_graft (call : Bool → WriterCall) :
    (manager.graft past).ask call =
      ((manager.ask call).1, (manager.ask call).2.graft past) := by
  simp only [ask, record, graft, List.append_assoc]

@[simp] theorem maxFirmwareSize_graft :
    (manager.graft past).maxFirmwareSize =
      (manager.maxFirmwareSize.1, manager.maxFirmwareSize.2.graft past) := by
  simp only [maxFirmwareSize, record, graft, List.append_assoc]

@[simp] theorem sendReport_graft (errorMessage : Option String) :
    (manager.graft past).sendReport errorMessage =
      (manager.sendReport errorMessage).graft past := by
  rw [sendReport_eq, sendReport_eq, graft, graft, List.append_assoc]
  rfl

@[simp] theorem transitionTo_graft (newStatus : OtaStatus) (errorMessage : Option String) :
    (manager.graft past).transitionTo newStatus errorMessage =
      (manager.transitionTo newStatus errorMessage).graft past :=
  sendReport_graft past { manager with status := newStatus } errorMessage

@[simp] theorem failIdle_graft (errorMessage : String) :
    (manager.graft past).failIdle errorMessage = (manager.failIdle errorMessage).graft past := by
  rw [failIdle, transitionTo_graft]
  rfl

@[simp] theorem abandon_graft (errorMessage : String) :
    (manager.graft past).abandon errorMessage = (manager.abandon errorMessage).graft past := by
  rw [abandon, record_graft, failIdle_graft, abandon]

@[simp] theorem ready_graft : (manager.graft past).ready = manager.ready.graft past := by
  by_cases idle : manager.status = .idle
  · simp [ready, idle]
  · simp only [ready, graft_status, idle, ne_eq, not_false_eq_true, if_true, restart, record_graft]
    rfl

theorem handleBegin_graft (firmwareSize firmwareCrc32 : UInt32) (totalChunks : UInt16) :
    (manager.graft past).handleBegin firmwareSize firmwareCrc32 totalChunks =
      (manager.handleBegin firmwareSize firmwareCrc32 totalChunks).graft past := by
  have announce_graft (other : OtaManager) :
      (other.graft past).announce firmwareCrc32 totalChunks =
        (other.announce firmwareCrc32 totalChunks).graft past := rfl
  simp only [handleBegin_eq, ready_graft, maxFirmwareSize_graft, failIdle_graft, announce_graft,
    transitionTo_graft, ask_graft]
  split
  · rfl
  rcases ask _ _ with ⟨answer, after⟩
  cases answer with
  | false => exact abandon_graft past after _
  | true => exact transitionTo_graft past after _ _

theorem handleData_graft (chunkIndex : UInt16) (data : Option Bytes) :
    (manager.graft past).handleData chunkIndex data =
      (manager.handleData chunkIndex data).graft past := by
  simp only [handleData, graft_status, graft_receivedChunks, abandon_graft, ask_graft]
  split
  · rfl
  split
  · rfl
  split
  · rfl
  rcases ask _ _ with ⟨answer, after⟩
  cases answer with
  | false => exact abandon_graft past after _
  | true =>
      refine Eq.trans ?_ (apply_ite (graft past) _ _ _).symm
      exact congrArg (fun reported => ite _ reported _)
        (sendReport_graft past after.countChunk none)

theorem handleEnd_graft : (manager.graft past).handleEnd = manager.handleEnd.graft past := by
  simp only [handleEnd, graft_status, graft_receivedChunks, graft_totalChunks, abandon_graft,
    ask_graft]
  split
  · rfl
  split
  · rfl
  rcases ask _ manager with ⟨answer, finished⟩
  cases answer with
  | false => exact abandon_graft past finished _
  | true =>
      simp only [transitionTo_graft, graft_expectedCrc32, ask_graft]
      rcases ask _ (finished.transitionTo .verifying none) with ⟨answer, verified⟩
      cases answer with
      | false => exact abandon_graft past verified _
      | true =>
          simp only [transitionTo_graft, ask_graft]
          rcases ask _ _ with ⟨answer, after⟩
          cases answer with
          | false => exact abandon_graft past after _
          | true => rfl

theorem dispatch_graft (input : OtaInput) :
    (manager.graft past).dispatch input = (manager.dispatch input).graft past := by
  cases input with
  | beginMessage _ => exact handleBegin_graft past _ _ _ _
  | beginValues _ _ _ => exact handleBegin_graft past _ _ _ _
  | dataMessage message =>
      simp only [dispatch, handleDataMessage, abandon_graft, handleData_graft]
      split <;> rfl
  | dataValues _ _ => exact handleData_graft past _ _ _
  | endMessage _ => exact handleEnd_graft past _
  | endValues => exact handleEnd_graft past _
  | abortMessage _ =>
      simp only [dispatch, handleAbort, graft_status, abandon_graft]
      split <;> rfl
  | abortValues _ =>
      simp only [dispatch, handleAbort, graft_status, abandon_graft]
      split <;> rfl

theorem handle_graft (input : OtaInput) :
    (manager.graft past).handle input = (manager.handle input).graft past := by
  rw [handle, record_graft, dispatch_graft, handle]

theorem run_graft (inputs : List OtaInput) :
    (manager.graft past).run inputs = (manager.run inputs).graft past := by
  induction inputs generalizing manager with
  | nil => rfl
  | cons input rest ih =>
      change ((manager.graft past).handle input).run rest =
        ((manager.handle input).run rest).graft past
      rw [handle_graft, ih]

theorem run_extends (inputs : List OtaInput) :
    ∃ events, (manager.run inputs).trace = manager.trace ++ events := by
  have fresh : manager = { manager with trace := [] }.graft manager.trace := by
    simp [graft]
  exact ⟨_, (congrArg (fun start => (run start inputs).trace) fresh).trans
    (congrArg OtaManager.trace (run_graft manager.trace { manager with trace := [] } inputs))⟩

end Graft

end OtaManager

end Libcomm
