import Libcomm.OtaProtocol

/-!
# What the host is told

The host sees the progress reports only.  A session that it was told to be
receiving must be reported as failed or as rebooting before the next session is
announced.  `OwesEnd` says that such a report is outstanding; between handlers it
is outstanding exactly while the manager is receiving, so the only handler that
can announce a session too early is a begin message in the middle of one.
-/

set_option autoImplicit false

namespace Libcomm

open LabelledRun

def reportedStatuses (trace : List Event) : List OtaStatus :=
  (reportsOf trace).map ProgressReport.status

@[simp] theorem reportedStatuses_append (front back : List Event) :
    reportedStatuses (front ++ back) = reportedStatuses front ++ reportedStatuses back := by
  simp [reportedStatuses]

/-! ## Sequences of statuses -/

/-- The session announced in front of these statuses has reached `receiving`. -/
def ReachedReceiving (statuses : List OtaStatus) : Prop :=
  ∃ front back, statuses = front ++ .receiving :: back ∧ .preparing ∉ front

def EndReported (statuses : List OtaStatus) : Prop :=
  .error ∈ statuses ∨ .rebooting ∈ statuses

/-- Between two announcements, the end of a session that was receiving. -/
def EndsTold (statuses : List OtaStatus) : Prop :=
  ∀ before between after,
    statuses = before ++ .preparing :: (between ++ .preparing :: after) →
      ReachedReceiving between → EndReported between

/-- A session has been receiving and its end has not been reported. -/
def OwesEnd (statuses : List OtaStatus) : Prop :=
  ∃ before since, statuses = before ++ .preparing :: since ∧ ReachedReceiving since ∧
    ¬ EndReported since

section Extending
variable {statuses : List OtaStatus} {status : OtaStatus}

theorem endReported_append (front back : List OtaStatus) :
    EndReported (front ++ back) ↔ EndReported front ∨ EndReported back := by
  simp only [EndReported, List.mem_append]
  tauto

theorem endsTold_snoc_iff :
    EndsTold (statuses ++ [status]) ↔
      EndsTold statuses ∧ (status = .preparing → ¬ OwesEnd statuses) := by
  constructor
  · intro told
    refine ⟨?_, ?_⟩
    · rintro before between after rfl
      exact told before between (after ++ [status]) (by simp)
    · rintro rfl ⟨before, since, rfl, reached, owed⟩
      exact owed (told before since [] (by simp) reached)
  · intro ends before between after whole reached
    obtain ⟨told, announced⟩ := ends
    rw [← List.cons_append, ← List.append_assoc] at whole
    rcases snoc_eq_append_cons whole with ⟨rfl, rfl, rfl⟩ | ⟨inner, rfl, rfl⟩
    · by_contra owed
      exact announced rfl ⟨before, between, rfl, reached, owed⟩
    · exact told before between inner (by simp) reached

theorem not_endsTold_of_owesEnd (owes : OwesEnd statuses) (after : List OtaStatus) :
    ¬ EndsTold (statuses ++ .preparing :: after) := by
  obtain ⟨before, since, rfl, reached, owed⟩ := owes
  exact fun told => owed (told before since after (by simp) reached)

theorem not_owesEnd_snoc (ends : status = .error ∨ status = .rebooting) :
    ¬ OwesEnd (statuses ++ [status]) := by
  rintro ⟨before, since, whole, _, owed⟩
  apply owed
  rcases snoc_eq_append_cons whole with ⟨_, _, rfl⟩ | ⟨inner, rfl, _⟩
  · rcases ends with impossible | impossible <;> cases impossible
  · rcases ends with rfl | rfl
    · exact Or.inl (by simp)
    · exact Or.inr (by simp)

theorem OwesEnd.snoc (owes : OwesEnd statuses) (goesOn : ¬ EndReported [status]) :
    OwesEnd (statuses ++ [status]) := by
  obtain ⟨before, since, rfl, ⟨front, back, rfl, first⟩, owed⟩ := owes
  refine ⟨before, front ++ .receiving :: back ++ [status], by simp,
    ⟨front, back ++ [status], by simp, first⟩, ?_⟩
  rw [endReported_append]
  exact not_or.mpr ⟨owed, goesOn⟩

theorem owesEnd_begun (statuses : List OtaStatus) :
    OwesEnd (statuses ++ [.preparing] ++ [.receiving]) :=
  ⟨statuses, [.receiving], by simp, ⟨[], [], rfl, by simp⟩, by simp [EndReported]⟩

end Extending

/-! ## The manager's reports -/

namespace OtaManager

/-- A begin message of an acceptable size that arrives while chunks are expected. -/
def Preempts (manager : OtaManager) (input : OtaInput) : Prop :=
  manager.status = .receiving ∧
    ∃ announcement, input.announcement = some announcement ∧
      ¬ (announcement.firmwareSize = 0 ∨
        announcement.firmwareSize > manager.writer.maxFirmwareSizes 0)

structure Told (manager : OtaManager) (statuses : List OtaStatus) : Prop where
  bound : manager.sendProgress = true
  reports : reportedStatuses manager.trace = statuses

namespace Told
variable {manager : OtaManager} {statuses : List OtaStatus}

theorem of_call (told : Told manager statuses) {after : OtaManager} {call : WriterCall}
    (same : after.sendProgress = manager.sendProgress)
    (trace : after.trace = manager.trace ++ [.call call]) : Told after statuses := by
  refine ⟨same.trans told.bound, ?_⟩
  rw [trace, reportedStatuses_append, told.reports]
  exact List.append_nil _

theorem asked (told : Told manager statuses) {call : Bool → WriterCall} {answer : Bool}
    {after : OtaManager} (asked : Asked manager call answer after) : Told after statuses := by
  refine told.of_call ?_ asked.trace_eq
  cases asked
  rfl

theorem sendReport (told : Told manager statuses) (errorMessage : Option String) :
    Told (manager.sendReport errorMessage) (statuses ++ [manager.status]) := by
  rw [sendReport_eq]
  refine ⟨told.bound, ?_⟩
  simp only [reportEvents, told.bound, if_true, reportedStatuses_append, told.reports]
  rfl

theorem transitionTo (told : Told manager statuses) (newStatus : OtaStatus)
    (errorMessage : Option String) :
    Told (manager.transitionTo newStatus errorMessage) (statuses ++ [newStatus]) :=
  @sendReport { manager with status := newStatus } statuses ⟨told.bound, told.reports⟩ errorMessage

theorem failIdle (told : Told manager statuses) (errorMessage : String) :
    Told (manager.failIdle errorMessage) (statuses ++ [.error]) :=
  ⟨(told.transitionTo .error (some errorMessage)).bound,
    (told.transitionTo .error (some errorMessage)).reports⟩

theorem abandon (told : Told manager statuses) (errorMessage : String) :
    Told (manager.abandon errorMessage) (statuses ++ [.error]) :=
  @failIdle (manager.record (.call .abort)) _ (told.of_call rfl rfl) errorMessage

theorem queried (told : Told manager statuses) : Told manager.ready.maxFirmwareSize.2 statuses := by
  have ready : Told manager.ready statuses := by
    unfold OtaManager.ready
    split
    · exact told.of_call rfl rfl
    · exact told
  exact ready.of_call rfl rfl

end Told

structure Informs (manager : OtaManager) (statuses : List OtaStatus) : Prop where
  told : Told manager statuses
  ends : EndsTold statuses
  owes : manager.status = .receiving ↔ OwesEnd statuses

namespace Informs
variable {manager : OtaManager} {statuses : List OtaStatus}

theorem failIdle (told : Told manager statuses) (ends : EndsTold statuses)
    (errorMessage : String) :
    Informs (manager.failIdle errorMessage) (statuses ++ [.error]) := by
  refine ⟨told.failIdle errorMessage, endsTold_snoc_iff.mpr ⟨ends, by simp⟩, ?_⟩
  have settled : ¬ OwesEnd (statuses ++ [.error]) := not_owesEnd_snoc (Or.inl rfl)
  exact ⟨fun receiving => (by cases receiving), fun owed => absurd owed settled⟩

theorem abandon (told : Told manager statuses) (ends : EndsTold statuses)
    (errorMessage : String) :
    Informs (manager.abandon errorMessage) (statuses ++ [.error]) :=
  @failIdle (manager.record (.call .abort)) _ (told.of_call rfl rfl) ends errorMessage

theorem same {after : OtaManager} (informs : Informs manager statuses) (told : Told after statuses)
    (status : after.status = manager.status) : Informs after statuses :=
  ⟨told, informs.ends, status ▸ informs.owes⟩

theorem handleBegin (informs : Informs manager statuses) (firmwareSize firmwareCrc32 : UInt32)
    (totalChunks : UInt16)
    (waits : manager.status = .receiving →
      firmwareSize = 0 ∨ firmwareSize > manager.ready.maxFirmwareSize.1) :
    ∃ later, Informs (manager.handleBegin firmwareSize firmwareCrc32 totalChunks) later := by
  have queried := informs.told.queried
  have announced : Told (manager.ready.maxFirmwareSize.2.announce firmwareCrc32 totalChunks)
      statuses := ⟨queried.bound, queried.reports⟩
  have preparing := announced.transitionTo .preparing none
  have closed (size : ¬ (firmwareSize = 0 ∨ firmwareSize > manager.ready.maxFirmwareSize.1)) :
      EndsTold (statuses ++ [.preparing]) :=
    endsTold_snoc_iff.mpr ⟨informs.ends, fun _ owed => size (waits (informs.owes.mpr owed))⟩
  have outcome := manager.handleBegin_outcome firmwareSize firmwareCrc32 totalChunks
  generalize manager.handleBegin firmwareSize firmwareCrc32 totalChunks = after at outcome ⊢
  cases outcome with
  | unfit _ => exact ⟨_, failIdle queried informs.ends _⟩
  | refused size asked => exact ⟨_, abandon (preparing.asked asked) (closed size) _⟩
  | begun size asked =>
      refine ⟨_, (preparing.asked asked).transitionTo .receiving none,
        endsTold_snoc_iff.mpr ⟨closed size, by simp⟩, ?_⟩
      rw [(transitionTo_same _ .receiving none).status]
      exact ⟨fun _ => owesEnd_begun statuses, fun _ => rfl⟩

theorem handleData (informs : Informs manager statuses) (chunkIndex : UInt16)
    (data : Option Bytes) :
    ∃ later, Informs (manager.handleData chunkIndex data) later := by
  have outcome := manager.handleData_outcome chunkIndex data
  generalize manager.handleData chunkIndex data = after at outcome ⊢
  cases outcome with
  | ignored _ => exact ⟨_, informs⟩
  | misplaced _ _ => exact ⟨_, abandon informs.told informs.ends _⟩
  | empty _ _ _ => exact ⟨_, abandon informs.told informs.ends _⟩
  | refused _ _ _ asked => exact ⟨_, abandon (informs.told.asked asked) informs.ends _⟩
  | @written after status _ _ asked =>
      have told := informs.told.asked asked
      have counted : Told after.countChunk statuses := ⟨told.bound, told.reports⟩
      have receiving : after.countChunk.status = .receiving := asked.same.status.trans status
      split
      · have reported := counted.sendReport none
        rw [receiving] at reported
        refine ⟨_, reported, endsTold_snoc_iff.mpr ⟨informs.ends, by simp⟩, ?_⟩
        rw [(sendReport_same after.countChunk none).status, receiving]
        have owed := (informs.owes.mp status).snoc (show ¬ EndReported [OtaStatus.receiving] by
          simp [EndReported])
        exact ⟨fun _ => owed, fun _ => rfl⟩
      · exact ⟨_, informs.same counted (receiving.trans status.symm)⟩

theorem handleEnd (informs : Informs manager statuses) :
    ∃ later, Informs manager.handleEnd later := by
  have outcome := manager.handleEnd_outcome
  generalize manager.handleEnd = after at outcome ⊢
  have verifying : EndsTold (statuses ++ [.verifying]) :=
    endsTold_snoc_iff.mpr ⟨informs.ends, by simp⟩
  have applying : EndsTold (statuses ++ [.verifying] ++ [.applying]) :=
    endsTold_snoc_iff.mpr ⟨verifying, by simp⟩
  have rebooting : EndsTold (statuses ++ [.verifying] ++ [.applying] ++ [.rebooting]) :=
    endsTold_snoc_iff.mpr ⟨applying, by simp⟩
  have told {finished verified after : OtaManager} {answer : Bool}
      (finish : Asked manager .finish true finished)
      (verify : Asked (finished.transitionTo .verifying none) (.verify manager.expectedCrc32)
        true verified)
      (activate : Asked ((verified.transitionTo .applying none).transitionTo .rebooting none)
        .activate answer after) :
      Told after (statuses ++ [.verifying] ++ [.applying] ++ [.rebooting]) := by
    have verifiedTold := ((informs.told.asked finish).transitionTo .verifying none).asked verify
    exact ((verifiedTold.transitionTo .applying none).transitionTo .rebooting none).asked activate
  cases outcome with
  | ignored _ => exact ⟨_, informs⟩
  | miscounted _ _ => exact ⟨_, abandon informs.told informs.ends _⟩
  | unfinished _ _ finish => exact ⟨_, abandon (informs.told.asked finish) informs.ends _⟩
  | unverified _ _ finish verify =>
      have verified := ((informs.told.asked finish).transitionTo .verifying none).asked verify
      exact ⟨_, abandon verified verifying _⟩
  | inactive _ _ finish verify activate =>
      exact ⟨_, abandon (told finish verify activate) rebooting _⟩
  | activated _ _ finish verify activate =>
      refine ⟨_, told finish verify activate, rebooting, ?_⟩
      rw [activate.same.status, (transitionTo_same _ .rebooting none).status]
      have settled : ¬ OwesEnd (statuses ++ [.verifying] ++ [.applying] ++ [.rebooting]) :=
        not_owesEnd_snoc (Or.inr rfl)
      exact ⟨fun receiving => (by cases receiving), fun owed => absurd owed settled⟩

theorem handleAbort (informs : Informs manager statuses) (reason : Option String) :
    ∃ later, Informs (manager.handleAbort reason) later := by
  unfold OtaManager.handleAbort
  split
  · exact ⟨_, informs⟩
  · exact ⟨_, abandon informs.told informs.ends _⟩

/-- Every handler but a preempting begin keeps the host informed. -/
theorem handle (informs : Informs manager statuses) (input : OtaInput)
    (waits : ¬ Preempts manager input) :
    ∃ later, Informs (manager.handle input) later := by
  have told : Told (manager.record (.input input)) statuses := by
    refine ⟨informs.told.bound, ?_⟩
    rw [record, reportedStatuses_append, informs.told.reports]
    exact List.append_nil _
  have entered := informs.same told rfl
  have size (announcement : Announcement) (announces : input.announcement = some announcement)
      (receiving : manager.status = .receiving) : announcement.firmwareSize = 0 ∨
        announcement.firmwareSize > (manager.record (.input input)).ready.maxFirmwareSize.1 := by
    by_contra fits
    have busy : (manager.record (.input input)).status ≠ .idle := by
      rw [show (manager.record (.input input)).status = .receiving from receiving]
      decide
    rw [ready, if_pos busy] at fits
    exact waits ⟨receiving, announcement, announces, fits⟩
  cases input with
  | beginMessage message => exact entered.handleBegin _ _ _ (size _ rfl)
  | beginValues _ _ _ => exact entered.handleBegin _ _ _ (size _ rfl)
  | dataMessage message =>
      rw [OtaManager.handle, dispatch, handleDataMessage]
      split
      · exact ⟨_, abandon told informs.ends _⟩
      · exact entered.handleData _ _
  | dataValues _ _ => exact entered.handleData _ _
  | endMessage _ => exact entered.handleEnd
  | endValues => exact entered.handleEnd
  | abortMessage _ => exact entered.handleAbort _
  | abortValues _ => exact entered.handleAbort _

end Informs

/-! ## Runs -/

theorem Told.begin {manager : OtaManager} {statuses : List OtaStatus}
    (told : Told manager statuses) {input : OtaInput} {announcement : Announcement}
    (announces : input.announcement = some announcement) :
    ∃ rest, reportedStatuses (manager.handle input).trace =
      statuses ++ (if announcement.firmwareSize = 0 ∨
        announcement.firmwareSize > manager.writer.maxFirmwareSizes 0 then .error else
          .preparing) :: rest := by
  have entered : Told (manager.record (.input input)) statuses := by
    refine ⟨told.bound, ?_⟩
    rw [record, reportedStatuses_append, told.reports]
    exact List.append_nil _
  have limit : (manager.record (.input input)).ready.maxFirmwareSize.1 =
      manager.writer.maxFirmwareSizes 0 := ready_maxFirmwareSize _
  have announced : Told ((manager.record (.input input)).ready.maxFirmwareSize.2.announce
      announcement.firmwareCrc32 announcement.totalChunks) statuses :=
    ⟨entered.queried.bound, entered.queried.reports⟩
  have preparing := announced.transitionTo .preparing none
  rw [handle_begin manager announces]
  have outcome := (manager.record (.input input)).handleBegin_outcome
    announcement.firmwareSize announcement.firmwareCrc32 announcement.totalChunks
  generalize OtaManager.handleBegin _ _ _ _ = after at outcome ⊢
  rw [← limit]
  cases outcome with
  | unfit size =>
      rw [if_pos size]
      exact ⟨[], (entered.queried.failIdle _).reports⟩
  | refused size asked =>
      rw [if_neg size]
      exact ⟨[.error], ((preparing.asked asked).abandon _).reports.trans (by simp)⟩
  | begun size asked =>
      rw [if_neg size]
      exact ⟨[.receiving], ((preparing.asked asked).transitionTo _ _).reports.trans (by simp)⟩

/-- The host stays informed up to the first begin message that preempts. -/
theorem run_informs (target : Target) (writer : FlashWriter) (inputs : List OtaInput)
    (waits : ∀ front input back statuses, inputs = front ++ input :: back →
      Informs ((new target true writer).run front) statuses →
        ¬ Preempts ((new target true writer).run front) input) :
    ∃ statuses, Informs ((new target true writer).run inputs) statuses := by
  induction inputs using List.reverseRecOn with
  | nil =>
      refine ⟨[], ⟨rfl, rfl⟩, fun before between after whole => by simp at whole, ?_⟩
      refine ⟨fun receiving => (by cases receiving), ?_⟩
      rintro ⟨before, since, whole, _⟩
      simp at whole
  | append_singleton inputs input ih =>
      obtain ⟨statuses, informs⟩ := ih fun front other back statuses whole =>
        waits front other (back ++ [input]) statuses
          (by rw [whole, List.append_assoc, List.cons_append])
      rw [run_snoc]
      exact informs.handle input (waits inputs input [] statuses rfl informs)

/-- A begin message in the middle of a session is answered with an error before
the next session is announced. -/
def AnswersBegin (manager : OtaManager) (input : OtaInput) : Prop :=
  manager.status = .receiving → input.announcement ≠ none →
    ∃ quiet rest, reportedStatuses (manager.handle input).trace =
      reportedStatuses manager.trace ++ (quiet ++ .error :: rest) ∧ .preparing ∉ quiet

theorem Informs.preempted {manager : OtaManager} {statuses : List OtaStatus}
    (informs : Informs manager statuses) {input : OtaInput} (preempts : Preempts manager input) :
    OwesEnd statuses ∧ ∃ rest,
      reportedStatuses (manager.handle input).trace = statuses ++ .preparing :: rest := by
  obtain ⟨receiving, announcement, announces, fits⟩ := preempts
  obtain ⟨rest, reports⟩ := informs.told.begin announces
  rw [if_neg fits] at reports
  exact ⟨informs.owes.mp receiving, rest, reports⟩

theorem Informs.answers_iff {manager : OtaManager} {statuses : List OtaStatus}
    (informs : Informs manager statuses) (input : OtaInput) :
    AnswersBegin manager input ↔ ¬ Preempts manager input := by
  constructor
  · intro answers preempts
    obtain ⟨_, rest, reports⟩ := informs.preempted preempts
    obtain ⟨receiving, announcement, announces, _⟩ := preempts
    obtain ⟨quiet, others, answered, first⟩ := answers receiving (by simp [announces])
    rw [reports, informs.told.reports] at answered
    have heads := List.append_cancel_left answered
    cases quiet with
    | nil => cases List.head_eq_of_cons_eq heads
    | cons status _ =>
        rw [← List.head_eq_of_cons_eq heads] at first
        exact first List.mem_cons_self
  · intro waits receiving begins
    obtain ⟨announcement, announces⟩ := Option.ne_none_iff_exists'.mp begins
    obtain ⟨rest, reports⟩ := informs.told.begin announces
    have unfit : announcement.firmwareSize = 0 ∨
        announcement.firmwareSize > manager.writer.maxFirmwareSizes 0 := by
      by_contra fits
      exact waits ⟨receiving, announcement, announces, fits⟩
    rw [if_pos unfit, ← informs.told.reports] at reports
    exact ⟨[], rest, reports, List.not_mem_nil⟩

/-- **Exactly when no session ends untold**: the end of every session that was
receiving is reported before the next announcement, if and only if no begin
message of an acceptable size arrives while chunks are expected; and if and only
if every begin message that arrives then is answered with an error first. -/
theorem session_ends_told_iff (target : Target) (writer : FlashWriter) (inputs : List OtaInput) :
    (EndsTold (reportedStatuses ((new target true writer).run inputs).trace) ↔
      ∀ front input back, inputs = front ++ input :: back →
        ¬ Preempts ((new target true writer).run front) input) ∧
    ((∀ front input back, inputs = front ++ input :: back →
        AnswersBegin ((new target true writer).run front) input) ↔
      ∀ front input back, inputs = front ++ input :: back →
        ¬ Preempts ((new target true writer).run front) input) := by
  have informed (front back : List OtaInput) (whole : inputs = front ++ back)
      (waits : ∀ earlier input later statuses, inputs = earlier ++ input :: later →
        Informs ((new target true writer).run earlier) statuses →
          ¬ Preempts ((new target true writer).run earlier) input) :
      ∃ statuses, Informs ((new target true writer).run front) statuses :=
    run_informs target writer front fun earlier input later statuses split =>
      waits earlier input (later ++ back) statuses (by rw [whole, split]; simp)
  refine ⟨⟨fun told => ?_, fun waits => ?_⟩, ⟨fun answers => ?_, fun waits => ?_⟩⟩
  · have waits (front : List OtaInput) (input : OtaInput) (back : List OtaInput)
        (statuses : List OtaStatus) (whole : inputs = front ++ input :: back)
        (informs : Informs ((new target true writer).run front) statuses) :
        ¬ Preempts ((new target true writer).run front) input := by
      intro preempts
      obtain ⟨owes, rest, reports⟩ := informs.preempted preempts
      obtain ⟨events, extended⟩ :=
        (((new target true writer).run front).handle input).run_extends back
      have split : (new target true writer).run inputs =
          (((new target true writer).run front).handle input).run back := by
        rw [whole]
        simp [run]
      rw [split, extended, reportedStatuses_append, reports, List.append_assoc,
        List.cons_append] at told
      exact not_endsTold_of_owesEnd owes _ told
    intro front input back whole
    obtain ⟨statuses, informs⟩ := informed front (input :: back) whole waits
    exact waits front input back statuses whole informs
  · obtain ⟨statuses, informs⟩ := informed inputs [] (List.append_nil _).symm
      fun front input back _ whole _ => waits front input back whole
    exact informs.told.reports ▸ informs.ends
  · have waits (front : List OtaInput) (input : OtaInput) (back : List OtaInput)
        (statuses : List OtaStatus) (whole : inputs = front ++ input :: back)
        (informs : Informs ((new target true writer).run front) statuses) :
        ¬ Preempts ((new target true writer).run front) input :=
      (informs.answers_iff input).mp (answers front input back whole)
    intro front input back whole
    obtain ⟨statuses, informs⟩ := informed front (input :: back) whole waits
    exact waits front input back statuses whole informs
  · intro front input back whole
    obtain ⟨statuses, informs⟩ := informed front (input :: back) whole
      fun earlier other later _ split _ => waits earlier other later split
    exact (informs.answers_iff input).mpr (waits front input back whole)

def doubleBegin : List OtaInput :=
  [.beginValues 1024 0 1, .beginValues 1024 0 1]

theorem second_begin_is_not_told :
    ¬ EndsTold (reportedStatuses ((new .stm32 true willingWriter).run doubleBegin).trace) := by
  have reports : reportedStatuses ((new .stm32 true willingWriter).run doubleBegin).trace =
      [.preparing, .receiving, .preparing, .receiving] := by decide
  intro told
  have ended := told [] [.receiving] [.receiving] reports ⟨[], [], rfl, List.not_mem_nil⟩
  exact absurd ended (by simp [EndReported])

end OtaManager

end Libcomm
