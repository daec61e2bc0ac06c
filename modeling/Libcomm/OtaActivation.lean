import Libcomm.OtaLateMessages
import Libcomm.OtaUpload

/-!
# Which messages activate an image

The handlers accept a language.  The writer is made to activate an image exactly at
the end of an upload: a begin, its chunks and an end that follow one another with
no other message between them, of a size that the writer allows, each step of which
the writer accepts.  Nothing that was handled before can prevent it or bring it
about.
-/

set_option autoImplicit false

namespace Libcomm

open OtaManager

namespace OtaManager

def Activates (manager : OtaManager) (input : OtaInput) : Prop :=
  ∃ calls, callsOf (manager.handle input).trace = callsOf manager.trace ++ calls ∧
    .activate true ∈ calls

/-! ## What the steps of a handler do to the writer -/

section Steps
variable (manager : OtaManager)

@[simp] theorem callsOf_reportEvents (status : OtaStatus) (errorMessage : Option String) :
    callsOf (manager.reportEvents status errorMessage) = [] := by
  unfold reportEvents
  split <;> rfl

@[simp] theorem callsOf_sendReport (errorMessage : Option String) :
    callsOf (manager.sendReport errorMessage).trace = callsOf manager.trace := by
  rw [sendReport_eq, callsOf_append, callsOf_reportEvents, List.append_nil]

@[simp] theorem callsOf_transitionTo (newStatus : OtaStatus) (errorMessage : Option String) :
    callsOf (manager.transitionTo newStatus errorMessage).trace = callsOf manager.trace :=
  callsOf_sendReport { manager with status := newStatus } errorMessage

@[simp] theorem callsOf_record_input (input : OtaInput) :
    callsOf (manager.record (.input input)).trace = callsOf manager.trace := by
  rw [record, callsOf_append]
  exact List.append_nil _

@[simp] theorem callsOf_failIdle (errorMessage : String) :
    callsOf (manager.failIdle errorMessage).trace = callsOf manager.trace :=
  callsOf_transitionTo manager .error (some errorMessage)

@[simp] theorem callsOf_abandon (errorMessage : String) :
    callsOf (manager.abandon errorMessage).trace = callsOf manager.trace ++ [.abort] := by
  rw [abandon, callsOf_failIdle, record, callsOf_append]
  rfl

theorem callsOf_queried :
    ∃ restarts, callsOf manager.ready.maxFirmwareSize.2.trace =
      callsOf manager.trace ++ (restarts ++ [.maxFirmwareSize manager.ready.maxFirmwareSize.1]) ∧
      ∀ call ∈ restarts, call = .abort := by
  have asked : callsOf manager.ready.maxFirmwareSize.2.trace =
      callsOf manager.ready.trace ++ [.maxFirmwareSize manager.ready.maxFirmwareSize.1] :=
    callsOf_append _ _
  rw [asked]
  unfold ready
  split
  · refine ⟨[.abort], ?_, by simp⟩
    rw [restart, record, callsOf_append, List.append_assoc]
    rfl
  · exact ⟨[], rfl, by simp⟩

@[simp] theorem sendReport_writer (errorMessage : Option String) :
    (manager.sendReport errorMessage).writer = manager.writer := by
  rw [sendReport_eq]

@[simp] theorem transitionTo_writer (newStatus : OtaStatus) (errorMessage : Option String) :
    (manager.transitionTo newStatus errorMessage).writer = manager.writer :=
  sendReport_writer { manager with status := newStatus } errorMessage

theorem queried_answers :
    manager.ready.maxFirmwareSize.2.writer.answers = manager.writer.answers := by
  unfold ready
  split <;> rfl

end Steps

namespace Asked
variable {manager after : OtaManager} {call : Bool → WriterCall} {answer : Bool}

theorem answers (asked : Asked manager call answer after) :
    answer = manager.writer.answers 0 ∧
      ∀ turn, after.writer.answers turn = manager.writer.answers (turn + 1) := by
  cases asked
  exact ⟨rfl, fun _ => rfl⟩

theorem callsOf_eq (asked : Asked manager call answer after) :
    callsOf after.trace = callsOf manager.trace ++ [call answer] := by
  rw [asked.trace_eq, callsOf_append]
  rfl

end Asked

/-! ## One message -/

section OneMessage
variable {manager : OtaManager} {input : OtaInput}

theorem not_activates (calls : List WriterCall)
    (made : callsOf (manager.handle input).trace = callsOf manager.trace ++ calls)
    (none : .activate true ∉ calls) : ¬ Activates manager input := by
  rintro ⟨others, same, member⟩
  rw [made] at same
  exact none (List.append_cancel_left same ▸ member)

theorem not_activates_begin {announcement : Announcement}
    (announces : input.announcement = some announcement) : ¬ Activates manager input := by
  obtain ⟨restarts, queried, aborts⟩ := (manager.record (.input input)).callsOf_queried
  have quiet : .activate true ∉ restarts := fun member => by cases aborts _ member
  rw [callsOf_record_input] at queried
  have outcome := (manager.record (.input input)).handleBegin_outcome announcement.firmwareSize
    announcement.firmwareCrc32 announcement.totalChunks
  rw [← manager.handle_begin announces] at outcome
  generalize after_eq : manager.handle input = after at outcome
  cases outcome with
  | unfit _ =>
      refine not_activates _ (by rw [after_eq, callsOf_failIdle, queried]) ?_
      simp [quiet]
  | refused _ asked =>
      refine not_activates _ (by
        rw [after_eq, callsOf_abandon, asked.callsOf_eq, callsOf_transitionTo, announce, queried,
          List.append_assoc, List.append_assoc]) ?_
      simp [quiet]
  | begun _ asked =>
      refine not_activates _ (by
        rw [after_eq, callsOf_transitionTo, asked.callsOf_eq, callsOf_transitionTo, announce,
          queried, List.append_assoc]) ?_
      simp [quiet]

theorem handleData_calls_eq (manager : OtaManager) (chunkIndex : UInt16) (data : Option Bytes) :
    ∃ calls, callsOf (manager.handleData chunkIndex data).trace = callsOf manager.trace ++ calls ∧
      .activate true ∉ calls := by
  have outcome := manager.handleData_outcome chunkIndex data
  generalize manager.handleData chunkIndex data = after at outcome ⊢
  cases outcome with
  | ignored _ => exact ⟨[], (List.append_nil _).symm, by simp⟩
  | misplaced _ _ => exact ⟨_, callsOf_abandon _ _, by simp⟩
  | empty _ _ _ => exact ⟨_, callsOf_abandon _ _, by simp⟩
  | refused _ _ _ asked =>
      exact ⟨_, by rw [callsOf_abandon, asked.callsOf_eq, List.append_assoc], by simp⟩
  | @written after _ _ _ asked =>
      have counted : callsOf after.countChunk.trace = _ := asked.callsOf_eq
      split
      · exact ⟨_, (callsOf_sendReport _ _).trans counted, by simp⟩
      · exact ⟨_, counted, by simp⟩

theorem not_activates_data {index : UInt16} {chunk : Bytes}
    (carries : input.chunk = some (index, chunk)) : ¬ Activates manager input := by
  obtain ⟨restarts, made, quiet⟩ :
      ∃ calls, callsOf (manager.handle input).trace = callsOf manager.trace ++ calls ∧
        .activate true ∉ calls := by
    rw [← callsOf_record_input manager input]
    cases input with
    | dataMessage message =>
        rw [handle, dispatch, handleDataMessage]
        split
        · exact ⟨_, callsOf_abandon _ _, by simp⟩
        · exact handleData_calls_eq _ _ _
    | dataValues chunkIndex data => exact handleData_calls_eq _ _ _
    | _ => cases carries
  exact not_activates _ made quiet

theorem not_activates_abort {reason : Option String}
    (handled : manager.handle input = (manager.record (.input input)).handleAbort reason) :
    ¬ Activates manager input := by
  rw [handleAbort] at handled
  split at handled
  · exact not_activates [] (by rw [handled]; simp) (by simp)
  · exact not_activates [.abort] (by rw [handled]; simp) (by simp)

/-- The session is complete, and the writer will accept the end of it. -/
def Completes (manager : OtaManager) : Prop :=
  manager.receivedChunks = manager.totalChunks ∧ ∀ turn < 3, manager.writer.answers turn = true

inductive EndEffect (manager : OtaManager) (input : OtaInput) : Prop where
  | ignored (status : manager.status ≠ .receiving)
      (handled : manager.handle input = manager.record (.input input))
  | failed (status : manager.status = .receiving) (incomplete : ¬ manager.Completes)
      (silent : ¬ Activates manager input) (idle : (manager.handle input).status = .idle)
  | activated (status : manager.status = .receiving) (complete : manager.Completes)
      (activates : Activates manager input) (rebooting : (manager.handle input).status = .rebooting)

theorem end_effect (isEnd : input.IsEnd) : EndEffect manager input := by
  have answered (turn : Nat) :
      (manager.record (.input input)).writer.answers turn = manager.writer.answers turn := rfl
  have calls : callsOf (manager.record (.input input)).trace = callsOf manager.trace := by simp
  have outcome := (manager.record (.input input)).handleEnd_outcome
  rw [← handle_end manager isEnd] at outcome
  generalize after_eq : manager.handle input = after at outcome
  cases outcome with
  | ignored status => exact .ignored status after_eq
  | miscounted status count =>
      refine .failed status (fun complete => count complete.1) ?_ (after_eq ▸ rfl)
      exact not_activates [.abort] (by rw [after_eq]; simp) (by simp)
  | unfinished status _ finish =>
      refine .failed status (fun complete => ?_) ?_ (after_eq ▸ rfl)
      · exact absurd ((finish.answers.1.trans (answered 0)).trans (complete.2 0 (by decide)))
          Bool.false_ne_true
      · exact not_activates [.finish false, .abort]
          (by rw [after_eq, callsOf_abandon, finish.callsOf_eq, calls]; simp) (by simp)
  | unverified status _ finish verify =>
      refine .failed status (fun complete => ?_) ?_ (after_eq ▸ rfl)
      · have second := verify.answers.1
        rw [transitionTo_writer, finish.answers.2, answered, complete.2 1 (by decide)] at second
        exact absurd second Bool.false_ne_true
      · exact not_activates _ (by
          rw [after_eq, callsOf_abandon, verify.callsOf_eq, callsOf_transitionTo,
            finish.callsOf_eq, calls, List.append_assoc, List.append_assoc]) (by simp)
  | inactive status _ finish verify activate =>
      refine .failed status (fun complete => ?_) ?_ (after_eq ▸ rfl)
      · have third := activate.answers.1
        rw [transitionTo_writer, transitionTo_writer, verify.answers.2, transitionTo_writer,
          finish.answers.2, answered, complete.2 2 (by decide)] at third
        exact absurd third Bool.false_ne_true
      · exact not_activates _ (by
          rw [after_eq, callsOf_abandon, activate.callsOf_eq, callsOf_transitionTo,
            callsOf_transitionTo, verify.callsOf_eq, callsOf_transitionTo,
            finish.callsOf_eq, calls, List.append_assoc, List.append_assoc, List.append_assoc])
          (by simp)
  | activated status count finish verify activate =>
      refine .activated status ⟨count, ?_⟩ ?_ ?_
      · have first := finish.answers.1
        have second := verify.answers.1
        have third := activate.answers.1
        rw [transitionTo_writer, finish.answers.2] at second
        rw [transitionTo_writer, transitionTo_writer, verify.answers.2, transitionTo_writer,
          finish.answers.2] at third
        intro turn inside
        match turn, inside with
        | 0, _ => exact first.symm
        | 1, _ => exact second.symm
        | 2, _ => exact third.symm
      · refine ⟨[.finish true, .verify manager.expectedCrc32 true, .activate true], ?_, by simp⟩
        rw [after_eq, activate.callsOf_eq, callsOf_transitionTo, callsOf_transitionTo,
          verify.callsOf_eq, callsOf_transitionTo, finish.callsOf_eq, calls, List.append_assoc,
          List.append_assoc]
        rfl
      · rw [after_eq, activate.same.status]
        exact (transitionTo_same _ .rebooting none).status

theorem activates_end_iff (isEnd : input.IsEnd) :
    Activates manager input ↔ manager.status = .receiving ∧
      manager.receivedChunks = manager.totalChunks ∧
      ∀ turn < 3, manager.writer.answers turn = true := by
  rcases @end_effect manager input isEnd with ⟨status, handled⟩ | ⟨status, incomplete, silent, _⟩ |
    ⟨status, complete, activates, _⟩
  · refine ⟨fun activates => absurd activates ?_, fun ends => absurd ends.1 status⟩
    exact not_activates [] (by rw [handled]; simp) (by simp)
  · exact ⟨fun activates => absurd activates silent, fun ends => absurd ends.2 incomplete⟩
  · exact ⟨fun _ => ⟨status, complete⟩, fun _ => activates⟩

/-- **Only an end activates**, and only a complete session. -/
theorem activates_iff (manager : OtaManager) (input : OtaInput) :
    Activates manager input ↔ input.IsEnd ∧ manager.status = .receiving ∧
      manager.receivedChunks = manager.totalChunks ∧
      ∀ turn < 3, manager.writer.answers turn = true := by
  have other (never : ¬ Activates manager input) (notEnd : ¬ input.IsEnd) :
      Activates manager input ↔ input.IsEnd ∧ manager.status = .receiving ∧
        manager.receivedChunks = manager.totalChunks ∧
        ∀ turn < 3, manager.writer.answers turn = true :=
    ⟨fun activates => absurd activates never, fun ends => absurd ends.1 notEnd⟩
  have ends (isEnd : input.IsEnd) := (@activates_end_iff manager input isEnd).trans
    (and_iff_right isEnd).symm
  cases input with
  | beginMessage message => exact other (not_activates_begin rfl) id
  | beginValues _ _ _ => exact other (not_activates_begin rfl) id
  | dataMessage message => exact other (not_activates_data rfl) id
  | dataValues _ _ => exact other (not_activates_data rfl) id
  | endMessage _ => exact ends trivial
  | endValues => exact ends trivial
  | abortMessage message => exact other (not_activates_abort rfl) id
  | abortValues reason => exact other (not_activates_abort rfl) id

end OneMessage

/-! ## An upload under way -/

def Allows (manager : OtaManager) (firmwareSize : UInt32) : Prop :=
  firmwareSize ≠ 0 ∧ firmwareSize ≤ manager.writer.maxFirmwareSizes 0

theorem allows_iff (manager : OtaManager) (firmwareSize : UInt32) :
    manager.Allows firmwareSize ↔
      ¬ (firmwareSize = 0 ∨ firmwareSize > manager.ready.maxFirmwareSize.1) := by
  rw [ready_maxFirmwareSize, not_or, gt_iff_lt, UInt32.not_lt]
  rfl

/-- Since a begin was handled, the chunks of a session have been taken, and the
writer has given an answer for each of them. -/
structure Underway (start : OtaManager) (session : Session) (manager : OtaManager) : Prop where
  mirrors : Mirrors manager (.receiving session)
  accepted : ∀ turn < session.chunks.length + 1, start.writer.answers turn = true
  answers : ∀ turn, manager.writer.answers turn =
    start.writer.answers (session.chunks.length + 1 + turn)

theorem handle_begin_cases (manager : OtaManager) {opening : OtaInput}
    {announcement : Announcement} (announces : opening.announcement = some announcement) :
    (manager.Allows announcement.firmwareSize ∧ manager.writer.answers 0 = true ∧
      Underway manager ⟨announcement, []⟩ (manager.handle opening)) ∨
    (¬ (manager.Allows announcement.firmwareSize ∧ manager.writer.answers 0 = true) ∧
      (manager.handle opening).status = .idle) := by
  have allows := (manager.record (.input opening)).allows_iff announcement.firmwareSize
  have answered (turn : Nat) :
      (manager.record (.input opening)).writer.answers turn = manager.writer.answers turn := rfl
  have queried := (manager.record (.input opening)).queried_answers
  have outcome := (manager.record (.input opening)).handleBegin_outcome announcement.firmwareSize
    announcement.firmwareCrc32 announcement.totalChunks
  rw [← manager.handle_begin announces] at outcome
  generalize manager.handle opening = after at outcome ⊢
  cases outcome with
  | unfit size => exact Or.inr ⟨fun both => allows.mp both.1 size, rfl⟩
  | refused size asked =>
      refine Or.inr ⟨fun both => ?_, rfl⟩
      have first := asked.answers.1
      rw [transitionTo_writer, announce, queried, answered, both.2] at first
      exact Bool.false_ne_true first
  | @begun after size asked =>
      have first := asked.answers.1
      have later := asked.answers.2
      rw [transitionTo_writer, announce, queried] at first
      simp only [transitionTo_writer, announce, queried] at later
      have same := (transitionTo_same ((manager.record (.input opening)).ready.maxFirmwareSize.2
        |>.announce announcement.firmwareCrc32 announcement.totalChunks) .preparing none).trans
          asked.same
      have final := transitionTo_same after .receiving none
      refine Or.inl ⟨allows.mpr size, first.symm, ?_, ?_, ?_⟩
      · exact .receiving final.status (final.expectedCrc32.trans same.expectedCrc32)
          (final.totalChunks.trans same.totalChunks)
          (final.receivedChunks.trans same.receivedChunks)
      · intro turn inside
        obtain rfl := Nat.lt_one_iff.mp inside
        exact first.symm
      · intro turn
        rw [transitionTo_writer, later, answered, Nat.add_comm]
        rfl

section Underway
variable {start manager : OtaManager} {session : Session}

theorem Underway.status (underway : Underway start session manager) :
    manager.status = .receiving := by
  cases underway.mirrors with
  | receiving status _ _ _ => exact status

theorem Underway.receivedChunks (underway : Underway start session manager) :
    manager.receivedChunks = session.nextIndex := by
  cases underway.mirrors with
  | receiving _ _ _ received => exact received

theorem Underway.totalChunks (underway : Underway start session manager) :
    manager.totalChunks = session.announcement.totalChunks := by
  cases underway.mirrors with
  | receiving _ _ total _ => exact total

theorem Underway.write (underway : Underway start session manager) {input : OtaInput}
    {chunk : Bytes} (carries : input.chunk = some (session.nextIndex, chunk))
    (nonEmpty : chunk ≠ []) :
    (manager.writer.answers 0 = true ∧
      Underway start (session.write chunk) (manager.handle input)) ∨
    (manager.writer.answers 0 = false ∧ (manager.handle input).status = .idle) := by
  obtain ⟨data, rfl, handled⟩ := manager.handle_chunk carries nonEmpty
  rw [handled]
  have answered (turn : Nat) :
      (manager.record (.input input)).writer.answers turn = manager.writer.answers turn := rfl
  have status : (manager.record (.input input)).status = .receiving := underway.status
  have index : (manager.record (.input input)).receivedChunks = session.nextIndex :=
    underway.receivedChunks
  have outcome := (manager.record (.input input)).handleData_outcome session.nextIndex data
  generalize OtaManager.handleData _ _ _ = after at outcome ⊢
  cases outcome with
  | ignored other => exact absurd status other
  | misplaced _ other => exact absurd index.symm other
  | empty _ _ nothing => exact absurd nothing nonEmpty
  | refused _ _ _ asked => exact Or.inr ⟨(answered 0).symm.trans asked.answers.1.symm, rfl⟩
  | @written after _ _ _ asked =>
      have first : manager.writer.answers 0 = true := asked.answers.1.symm
      have same := asked.same
      have counted : Underway start (session.write (data.getD [])) after.countChunk := by
        have length : (session.write (data.getD [])).chunks.length = session.chunks.length + 1 :=
          List.length_append
        cases underway.mirrors with
        | receiving _ crc total received =>
            refine ⟨.receiving (same.status.trans status) (same.expectedCrc32.trans crc)
              (same.totalChunks.trans total) ?_, ?_, ?_⟩
            · rw [Session.nextIndex_write, ← received, countChunk, same.receivedChunks]
              rfl
            · intro turn inside
              rw [length] at inside
              rcases Nat.lt_succ_iff_lt_or_eq.mp inside with earlier | rfl
              · exact underway.accepted turn earlier
              · exact (underway.answers 0).symm.trans first
            · intro turn
              rw [length, show after.countChunk.writer = after.writer from rfl, asked.answers.2,
                answered, underway.answers]
              congr 1
              omega
      refine Or.inl ⟨first, ?_⟩
      split
      · refine ⟨counted.mirrors.of_same (sendReport_same _ none), counted.accepted, ?_⟩
        rw [sendReport_writer]
        exact counted.answers
      · exact counted

theorem Underway.handle (underway : Underway start session manager) (input : OtaInput)
    (goesOn : input.announcement = none) (receiving : (manager.handle input).status = .receiving) :
    ∃ chunk, chunk ≠ [] ∧ input.chunk = some (session.nextIndex, chunk) ∧
      Underway start (session.write chunk) (manager.handle input) := by
  have index : (manager.record (.input input)).receivedChunks = session.nextIndex :=
    underway.receivedChunks
  have status : (manager.record (.input input)).status = .receiving := underway.status
  have data (chunkIndex : UInt16) (data : Option Bytes)
      (handled : manager.handle input =
        (manager.record (.input input)).handleData chunkIndex data) :
      chunkIndex = session.nextIndex ∧ data.getD [] ≠ [] := by
    rw [handled] at receiving
    have outcome := (manager.record (.input input)).handleData_outcome chunkIndex data
    generalize OtaManager.handleData _ _ _ = after at outcome receiving
    cases outcome with
    | ignored other => exact absurd status other
    | misplaced _ _ => cases receiving
    | empty _ _ _ => cases receiving
    | refused _ _ _ _ => cases receiving
    | written _ same nonEmpty _ => exact ⟨same.trans index, nonEmpty⟩
  have next (chunk : Bytes) (nonEmpty : chunk ≠ [])
      (carries : input.chunk = some (session.nextIndex, chunk)) :
      ∃ chunk, chunk ≠ [] ∧ input.chunk = some (session.nextIndex, chunk) ∧
        Underway start (session.write chunk) (manager.handle input) := by
    rcases underway.write carries nonEmpty with ⟨_, later⟩ | ⟨_, idle⟩
    · exact ⟨chunk, nonEmpty, carries, later⟩
    · exact absurd (idle.symm.trans receiving) (by decide)
  have ended (handled : manager.handle input = (manager.record (.input input)).handleEnd) :
      False := by
    rw [handled] at receiving
    have outcome := (manager.record (.input input)).handleEnd_outcome
    generalize OtaManager.handleEnd _ = after at outcome receiving
    cases outcome with
    | ignored other => exact absurd status other
    | activated _ _ _ _ activate =>
        rw [activate.same.status, (transitionTo_same _ .rebooting none).status] at receiving
        cases receiving
    | _ => cases receiving
  have aborted (reason : Option String)
      (handled : manager.handle input = (manager.record (.input input)).handleAbort reason) :
      False := by
    rw [handled, handleAbort, if_neg (by rw [status]; decide)] at receiving
    cases receiving
  cases input with
  | beginMessage _ => cases goesOn
  | beginValues _ _ _ => cases goesOn
  | dataMessage message =>
      by_cases empty : (message.data.getD []).length = 0
      · have handled : manager.handle (.dataMessage message) =
            (manager.record (.input (.dataMessage message))).abandon "Empty chunk data" :=
          if_pos empty
        rw [handled] at receiving
        cases receiving
      · obtain ⟨same, nonEmpty⟩ := data message.chunkIndex message.data (if_neg empty)
        exact next _ nonEmpty (by rw [← same]; rfl)
  | dataValues chunkIndex chunk =>
      obtain ⟨same, nonEmpty⟩ := data chunkIndex chunk rfl
      exact next _ nonEmpty (by rw [← same]; rfl)
  | endMessage _ => exact (ended rfl).elim
  | endValues => exact (ended rfl).elim
  | abortMessage message => exact (aborted _ rfl).elim
  | abortValues reason => exact (aborted _ rfl).elim

end Underway

theorem handle_not_receiving {manager : OtaManager} (status : manager.status ≠ .receiving)
    (input : OtaInput) (goesOn : input.announcement = none) :
    (manager.handle input).status ≠ .receiving := by
  have entered : (manager.record (.input input)).status ≠ .receiving := status
  have aborted (reason : Option String) :
      ((manager.record (.input input)).handleAbort reason).status ≠ .receiving := by
    rw [handleAbort]
    split
    · exact entered
    · exact (show OtaStatus.idle ≠ .receiving by decide)
  cases input with
  | beginMessage _ => cases goesOn
  | beginValues _ _ _ => cases goesOn
  | dataMessage message =>
      rw [handle, dispatch, handleDataMessage]
      split
      · exact (show OtaStatus.idle ≠ .receiving by decide)
      · rw [handleData_of_not_receiving entered]
        exact entered
  | dataValues index data =>
      rw [handle, dispatch, handleData_of_not_receiving entered]
      exact entered
  | endMessage _ => rwa [handle, dispatch, handleEnd, if_pos entered]
  | endValues => rwa [handle, dispatch, handleEnd, if_pos entered]
  | abortMessage message => exact aborted message.reason
  | abortValues reason => exact aborted reason

/-! ## Runs -/

theorem carry_snoc {data : List OtaInput} {session : Session} {input : OtaInput} {chunk : Bytes}
    (carry : Carry data session.chunks)
    (carries : input.chunk = some (session.nextIndex, chunk)) :
    Carry (data ++ [input]) (session.write chunk).chunks := by
  rw [Carry, Session.write, List.mapIdx_concat, List.map_append, show data.map _ = _ from carry,
    List.map_singleton, carries]
  rfl

/-- A manager that expects chunks has been sent the begin and the chunks so far,
with nothing else between them. -/
theorem opened_of_receiving {first : OtaManager} (initially : first.status ≠ .receiving)
    (inputs : List OtaInput) (receiving : (first.run inputs).status = .receiving) :
    ∃ session earlier opening data, inputs = earlier ++ opening :: data ∧
      opening.announcement = some session.announcement ∧ Carry data session.chunks ∧
      (∀ chunk ∈ session.chunks, chunk ≠ []) ∧
      (first.run earlier).Allows session.announcement.firmwareSize ∧
      Underway (first.run earlier) session (first.run inputs) := by
  induction inputs using List.reverseRecOn with
  | nil => exact absurd receiving initially
  | append_singleton inputs input ih =>
      rw [run_snoc] at receiving
      cases announces : input.announcement with
      | some announcement =>
          rcases (first.run inputs).handle_begin_cases announces with
            ⟨allows, _, underway⟩ | ⟨_, idle⟩
          · refine ⟨⟨announcement, []⟩, inputs, input, [], rfl, announces, rfl, by simp, allows, ?_⟩
            rw [run_snoc]
            exact underway
          · exact absurd (idle.symm.trans receiving) (by decide)
      | none =>
          by_cases before : (first.run inputs).status = .receiving
          · obtain ⟨session, earlier, opening, data, rfl, opens, carry, filled, allows, underway⟩ :=
              ih before
            obtain ⟨chunk, nonEmpty, carries, later⟩ := underway.handle input announces receiving
            refine ⟨session.write chunk, earlier, opening, data ++ [input], by simp, opens,
              carry_snoc carry carries, ?_, allows, ?_⟩
            · intro other member
              rcases List.mem_append.mp member with member | member
              · exact filled other member
              · exact List.mem_singleton.mp member ▸ nonEmpty
            · rw [run_snoc]
              exact later
          · exact absurd receiving (handle_not_receiving before input announces)

theorem Underway.run {start manager : OtaManager} {announcement : Announcement}
    (opened : Underway start ⟨announcement, []⟩ manager) (chunks : List Bytes)
    (filled : ∀ chunk ∈ chunks, chunk ≠ [])
    (accepted : ∀ turn < chunks.length + 1, start.writer.answers turn = true)
    {data : List OtaInput} (carry : Carry data chunks) :
    Underway start ⟨announcement, chunks⟩ (manager.run data) := by
  induction chunks using List.reverseRecOn generalizing data with
  | nil =>
      cases List.map_eq_nil_iff.mp carry
      exact opened
  | append_singleton chunks chunk ih =>
      rw [Carry, List.mapIdx_concat] at carry
      obtain ⟨front, back, rfl, earlier, last⟩ := List.map_eq_append_iff.mp carry
      obtain ⟨input, rfl, carries⟩ := List.map_eq_singleton_iff.mp last
      rw [List.length_append] at accepted
      have underway := ih (fun other member => filled other (List.mem_append_left _ member))
        (fun turn inside => accepted turn (Nat.lt_succ_of_lt inside)) earlier
      rw [run_snoc]
      rcases underway.write carries (filled chunk (by simp)) with ⟨_, later⟩ | ⟨refused, _⟩
      · exact later
      · rw [underway.answers] at refused
        exact absurd (refused.symm.trans (accepted (chunks.length + 1) (Nat.lt_succ_self _)))
          Bool.false_ne_true

/-- The messages end in an upload: a begin of an allowed size, its non-empty chunks and
an end, with nothing else between them, and the writer accepts all of it. -/
def EndsInUpload (first : OtaManager) (inputs : List OtaInput) : Prop :=
  ∃ earlier upload firmwareSize firmwareCrc32 chunks,
    inputs = earlier ++ upload ∧
    IsUpload firmwareSize firmwareCrc32 chunks upload ∧ (∀ chunk ∈ chunks, chunk ≠ []) ∧
    (first.run earlier).Allows firmwareSize ∧
    ∀ turn < chunks.length + 4, (first.run earlier).writer.answers turn = true

theorem endsInUpload_of_activates {first : OtaManager} (initially : first.status ≠ .receiving)
    {inputs : List OtaInput} {input : OtaInput} (activates : Activates (first.run inputs) input) :
    EndsInUpload first (inputs ++ [input]) := by
  obtain ⟨isEnd, receiving, count, last⟩ := (activates_iff _ _).mp activates
  obtain ⟨session, earlier, opening, data, rfl, opens, carry, filled, allows, underway⟩ :=
    opened_of_receiving initially inputs receiving
  refine ⟨earlier, opening :: data ++ [input], session.announcement.firmwareSize,
    session.announcement.firmwareCrc32, session.chunks, by simp,
    ⟨opening, data, input, rfl, ?_, carry, isEnd⟩, filled, allows, ?_⟩
  · rw [opens, show UInt16.ofNat session.chunks.length = session.announcement.totalChunks from
      (underway.receivedChunks.symm.trans count).trans underway.totalChunks]
  · intro turn inside
    by_cases early : turn < session.chunks.length + 1
    · exact underway.accepted turn early
    · have answer := last (turn - (session.chunks.length + 1)) (by omega)
      rw [underway.answers] at answer
      rwa [Nat.add_sub_cancel' (Nat.le_of_not_lt early)] at answer

theorem activates_of_endsInUpload {first : OtaManager} {inputs : List OtaInput} {input : OtaInput}
    (ends : EndsInUpload first (inputs ++ [input])) : Activates (first.run inputs) input := by
  obtain ⟨earlier, upload, firmwareSize, firmwareCrc32, chunks, whole,
    ⟨opening, data, closing, rfl, opens, carry, isEnd⟩, filled, allows, accepted⟩ := ends
  rw [← List.append_assoc] at whole
  obtain ⟨rfl, same⟩ := List.append_inj' whole rfl
  obtain rfl := List.singleton_inj.mp same
  have opened : first.run (earlier ++ opening :: data) =
      ((first.run earlier).handle opening).run data := by
    simp [run]
  rcases (first.run earlier).handle_begin_cases opens with ⟨_, _, begun⟩ | ⟨refused, _⟩
  · have underway := begun.run chunks filled (fun turn inside => accepted turn (by omega)) carry
    rw [opened, activates_iff]
    refine ⟨isEnd, underway.status, underway.receivedChunks.trans underway.totalChunks.symm, ?_⟩
    intro turn inside
    rw [underway.answers]
    exact accepted _ (by dsimp only; omega)
  · exact absurd ⟨allows, accepted 0 (by omega)⟩ refused

/-- **The messages that activate an image** are exactly the uploads: whatever was
handled before, the writer is told to activate when an end completes a begin of an
allowed size and its non-empty chunks, nothing having come between them, and the
writer has accepted all of it.  The number of chunks may exceed 65535, since indices
and the announced number are compared modulo 2^16. -/
theorem activates_iff_upload (target : Target) (sendProgress : Bool) (writer : FlashWriter)
    (inputs : List OtaInput) (input : OtaInput) :
    Activates ((new target sendProgress writer).run inputs) input ↔
      EndsInUpload (new target sendProgress writer) (inputs ++ [input]) :=
  ⟨endsInUpload_of_activates (show OtaStatus.idle ≠ .receiving by decide),
    activates_of_endsInUpload⟩

end OtaManager

end Libcomm
