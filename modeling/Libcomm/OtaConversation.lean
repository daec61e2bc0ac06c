import Libcomm.OtaProtocol

/-!
# The conversation with the host

A progress report is sent for what has been done: the session automaton is
extended with the last report sent, and each report is allowed by the phase of the
session and the report before it.  Between two messages the last report shows the
host what the manager does, up to the chunks that are not reported one by one.
-/

set_option autoImplicit false

namespace Libcomm

open LabelledRun

/-! ## Chunk counts -/

def Due (total count : UInt16) : Prop :=
  count = total ∨ count.toNat % OtaManager.kProgressReportInterval = 0

/-- The chunks taken since a count was reported were not due. -/
structure Behind (total reported received : UInt16) (since : Nat) : Prop where
  received_eq : received = reported + UInt16.ofNat since
  quiet : ∀ later < since, ¬ Due total (reported + UInt16.ofNat (later + 1))

namespace Behind
variable {total reported received : UInt16} {since : Nat}

theorem refl (total reported : UInt16) : Behind total reported reported 0 :=
  ⟨(UInt16.add_zero reported).symm, nofun⟩

theorem next (behind : Behind total reported received since) (quiet : ¬ Due total (received + 1)) :
    Behind total reported (received + 1) (since + 1) := by
  have tallied : received + 1 = reported + UInt16.ofNat (since + 1) := by
    rw [behind.received_eq, UInt16.ofNat_add, UInt16.add_assoc]
    rfl
  refine ⟨tallied, fun later inside => ?_⟩
  rcases Nat.lt_succ_iff_lt_or_eq.mp inside with earlier | rfl
  · exact behind.quiet later earlier
  · exact tallied ▸ quiet

theorem eq_of_due (behind : Behind total reported received since) (due : Due total received) :
    received = reported := by
  rw [behind.received_eq] at due ⊢
  cases since with
  | zero => exact UInt16.add_zero reported
  | succ since => exact absurd due (behind.quiet since (Nat.lt_succ_self since))

/-- Among fifty consecutive counts one is due, also where they wrap around. -/
theorem lt_interval (behind : Behind total reported received since) :
    since < OtaManager.kProgressReportInterval := by
  by_contra far
  have far : 50 ≤ since := Nat.le_of_not_lt far
  have value (later : Nat) :
      (reported + UInt16.ofNat (later + 1)).toNat = (reported.toNat + (later + 1)) % 65536 := by
    simp [UInt16.toNat_add]
  have small : reported.toNat < 65536 := reported.toNat_lt
  have multiple (later : Nat) (inside : later < 50)
      (divides : (reported.toNat + (later + 1)) % 65536 % 50 = 0) : False := by
    refine behind.quiet later (by omega) (Or.inr ?_)
    rw [value]
    exact divides
  by_cases wraps : 65536 - reported.toNat ≤ 50
  · exact multiple (65535 - reported.toNat) (by omega) (by omega)
  · have inside : reported.toNat + (49 - reported.toNat % 50 + 1) < 65536 := by omega
    exact multiple (49 - reported.toNat % 50) (by omega) (by rw [Nat.mod_eq_of_lt inside]; omega)

end Behind

/-! ## What may be reported -/

/-- After these reports a begin may open a session. -/
def AtRest : Option ProgressReport → Prop
  | none => True
  | some report =>
      report.status = .receiving ∨ report.status = .rebooting ∨ report.status = .error

/-- The errors of messages that find no session. -/
def idleErrors : List String := ["Firmware too large for target", "Empty chunk data"]

/-- The counts and the text of an error report, after the report before it. -/
inductive Failure : Option ProgressReport → UInt16 → UInt16 → String → Prop where
  | fresh {message : String} (idle : message ∈ idleErrors) : Failure none 0 0 message
  | again (report : ProgressReport) {message : String} (error : report.status = .error)
      (idle : message ∈ idleErrors) :
      Failure (some report) report.receivedChunks report.totalChunks message
  /-- A refused begin has already given up the session before it. -/
  | preempted (report : ProgressReport)
      (settled : report.status = .receiving ∨ report.status = .rebooting) :
      Failure (some report) 0 0 "Firmware too large for target"
  | erase (report : ProgressReport) (preparing : report.status = .preparing) :
      Failure (some report) report.receivedChunks report.totalChunks "Flash erase failed"
  | transfer (report : ProgressReport) {received : UInt16} {since : Nat}
      (receiving : report.status = .receiving)
      (behind : Behind report.totalChunks report.receivedChunks received since)
      (message : String) : Failure (some report) received report.totalChunks message
  | verification (report : ProgressReport) (verifying : report.status = .verifying) :
      Failure (some report) report.receivedChunks report.totalChunks "CRC32 verification failed"
  | activation (report : ProgressReport) (rebooting : report.status = .rebooting)
      (message : String) :
      Failure (some report) report.receivedChunks report.totalChunks message

/-- The reports that a phase of the session allows after the report before. -/
inductive Reports (target : Target) : Phase → Option ProgressReport → ProgressReport → Prop where
  | preparing {last : Option ProgressReport} (total : UInt16) (rest : AtRest last) :
      Reports target .closed last ⟨target, .preparing, 0, total, none⟩
  | receiving (announcement : Announcement) :
      Reports target (.receiving ⟨announcement, []⟩)
        (some ⟨target, .preparing, 0, announcement.totalChunks, none⟩)
        ⟨target, .receiving, 0, announcement.totalChunks, none⟩
  | progress {session : Session} {reported before : UInt16} {since : Nat}
      (behind : Behind session.announcement.totalChunks reported before since)
      (next : session.nextIndex = before + 1)
      (due : Due session.announcement.totalChunks session.nextIndex) :
      Reports target (.receiving session)
        (some ⟨target, .receiving, reported, session.announcement.totalChunks, none⟩)
        ⟨target, .receiving, session.nextIndex, session.announcement.totalChunks, none⟩
  | verifying {session : Session}
      (complete : session.nextIndex = session.announcement.totalChunks) :
      Reports target (.finished session)
        (some ⟨target, .receiving, session.nextIndex, session.nextIndex, none⟩)
        ⟨target, .verifying, session.nextIndex, session.nextIndex, none⟩
  | applying {session : Session} :
      Reports target (.verified session)
        (some ⟨target, .verifying, session.nextIndex, session.nextIndex, none⟩)
        ⟨target, .applying, session.nextIndex, session.nextIndex, none⟩
  | rebooting {session : Session} :
      Reports target (.verified session)
        (some ⟨target, .applying, session.nextIndex, session.nextIndex, none⟩)
        ⟨target, .rebooting, session.nextIndex, session.nextIndex, none⟩
  | error {last : Option ProgressReport} {received total : UInt16} {message : String}
      (failure : Failure last received total message) :
      Reports target .closed last ⟨target, .error, received, total, some message⟩

structure Talk where
  session : SessionState
  last : Option ProgressReport

/-- Messages and writer calls follow the session protocol, reports the conversation. -/
inductive TalkStep (target : Target) : Talk → Event → Talk → Prop where
  | silent {session next : SessionState} {last : Option ProgressReport} {event : Event}
      (step : SessionStep OtaManager.unlimited session event next) (quiet : event.report? = none) :
      TalkStep target ⟨session, last⟩ event ⟨next, last⟩
  | report {session : SessionState} {last : Option ProgressReport} {report : ProgressReport}
      (reports : Reports target session.phase last report) :
      TalkStep target ⟨session, last⟩ (.report report) ⟨session, some report⟩

abbrev TalkRun (target : Target) : List Event → Talk → Prop :=
  Run (TalkStep target) ⟨⟨.closed, none⟩, none⟩

/-- The conversation keeps to the session protocol. -/
theorem TalkRun.sessionRun {target : Target} {trace : List Event} {talk : Talk}
    (run : TalkRun target trace talk) : SessionRun OtaManager.unlimited trace talk.session := by
  induction run with
  | nil => exact .nil
  | snoc _ last ih =>
      cases last with
      | silent step _ => exact .snoc ih step
      | report reports => exact .snoc ih (.report _ (by rintro failing; cases failing ▸ reports))

theorem TalkRun.last_eq {target : Target} {trace : List Event} {talk : Talk}
    (run : TalkRun target trace talk) : talk.last = (reportsOf trace).getLast? := by
  induction run with
  | nil => rfl
  | snoc _ last ih =>
      rw [reportsOf_append]
      cases last with
      | silent _ quiet =>
          rw [reportsOf, reportsOf, List.filterMap_cons_none quiet, List.filterMap_nil,
            List.append_nil]
          exact ih
      | report _ =>
          rw [show reportsOf [Event.report _] = [_] from rfl, List.getLast?_concat]

namespace OtaManager

/-- The trace of the manager is a conversation with a host that is listening. -/
structure Talks (target : Target) (manager : OtaManager) (talk : Talk) : Prop where
  bound : manager.sendProgress = true
  target_eq : manager.target = target
  run : TalkRun target manager.trace talk

/-- What the last report says of the manager between two messages. -/
inductive Pictures (target : Target) (manager : OtaManager) :
    Phase → Option ProgressReport → Prop where
  | fresh (status : manager.status = .idle) (received : manager.receivedChunks = 0)
      (total : manager.totalChunks = 0) : Pictures target manager .closed none
  | failed (status : manager.status = .idle) (message : String) :
      Pictures target manager .closed (some ⟨target, .error, manager.receivedChunks,
        manager.totalChunks, some message⟩)
  | receiving {session : Session} {reported : UInt16} {since : Nat}
      (mirrors : Mirrors manager (.receiving session))
      (behind : Behind manager.totalChunks reported manager.receivedChunks since) :
      Pictures target manager (.receiving session)
        (some ⟨target, .receiving, reported, manager.totalChunks, none⟩)
  | rebooting (status : manager.status = .rebooting)
      (complete : manager.receivedChunks = manager.totalChunks) :
      Pictures target manager .rebooting
        (some ⟨target, .rebooting, manager.receivedChunks, manager.receivedChunks, none⟩)

def Converses (target : Target) (manager : OtaManager) : Prop :=
  ∃ talk, Talks target manager talk ∧ Pictures target manager talk.session.phase talk.last

namespace Talks
variable {target : Target} {manager after : OtaManager} {session next : SessionState}
  {last : Option ProgressReport}

theorem of_call (talks : Talks target manager ⟨session, last⟩) {call : WriterCall}
    (bound : after.sendProgress = manager.sendProgress) (same : after.target = manager.target)
    (trace : after.trace = manager.trace ++ [.call call])
    (step : SessionStep unlimited session (.call call) next) :
    Talks target after ⟨next, last⟩ :=
  ⟨bound.trans talks.bound, same.trans talks.target_eq,
    trace ▸ talks.run.snoc (.silent step rfl)⟩

theorem asked (talks : Talks target manager ⟨session, last⟩) {call : Bool → WriterCall}
    {answer : Bool} (asked : Asked manager call answer after)
    (step : SessionStep unlimited session (.call (call answer)) next) :
    Talks target after ⟨next, last⟩ := by
  cases asked
  exact talks.of_call rfl rfl rfl step

theorem sendReport (talks : Talks target manager ⟨session, last⟩) (errorMessage : Option String)
    (reports : Reports target session.phase last
      ⟨target, manager.status, manager.receivedChunks, manager.totalChunks, errorMessage⟩) :
    Talks target (manager.sendReport errorMessage) ⟨session,
      some ⟨target, manager.status, manager.receivedChunks, manager.totalChunks,
        errorMessage⟩⟩ := by
  rw [OtaManager.sendReport, if_pos talks.bound]
  refine ⟨talks.bound, talks.target_eq, talks.run.snoc ?_⟩
  rw [talks.target_eq]
  exact .report reports

theorem transitionTo (talks : Talks target manager ⟨session, last⟩) (newStatus : OtaStatus)
    (errorMessage : Option String)
    (reports : Reports target session.phase last
      ⟨target, newStatus, manager.receivedChunks, manager.totalChunks, errorMessage⟩) :
    Talks target (manager.transitionTo newStatus errorMessage) ⟨session,
      some ⟨target, newStatus, manager.receivedChunks, manager.totalChunks, errorMessage⟩⟩ :=
  @sendReport target { manager with status := newStatus } session last
    ⟨talks.bound, talks.target_eq, talks.run⟩ errorMessage reports

theorem failIdle {handling : Option Announcement} {message : String}
    (talks : Talks target manager ⟨⟨.closed, handling⟩, last⟩)
    (failure : Failure last manager.receivedChunks manager.totalChunks message) :
    Converses target (manager.failIdle message) := by
  have failed := talks.transitionTo .error (some message) (.error failure)
  refine ⟨_, ⟨failed.bound, failed.target_eq, failed.run⟩, ?_⟩
  rw [failIdle_eq]
  exact .failed rfl message

theorem abandon {message : String} (talks : Talks target manager ⟨session, last⟩)
    (failure : Failure last manager.receivedChunks manager.totalChunks message) :
    Converses target (manager.abandon message) :=
  @failIdle target (manager.record (.call .abort)) last session.handling message
    (talks.of_call rfl rfl rfl .abort) failure

end Talks

namespace Pictures
variable {target : Target} {manager : OtaManager} {phase : Phase} {last : Option ProgressReport}

theorem mirrors (pictures : Pictures target manager phase last) : Mirrors manager phase := by
  cases pictures with
  | fresh status _ _ => exact .closed status
  | failed status _ => exact .closed status
  | receiving mirrors _ => exact mirrors
  | rebooting status _ => exact .rebooting status

theorem atRest (pictures : Pictures target manager phase last) : AtRest last := by
  cases pictures with
  | fresh _ _ _ => trivial
  | failed _ _ => exact Or.inr (Or.inr rfl)
  | receiving _ _ => exact Or.inl rfl
  | rebooting _ _ => exact Or.inr (Or.inl rfl)

/-- Without a session only some errors are told. -/
theorem failure (pictures : Pictures target manager phase last) {message : String}
    (idle : manager.status = .idle → message ∈ idleErrors) :
    Failure last manager.receivedChunks manager.totalChunks message := by
  cases pictures with
  | fresh status received total =>
      rw [received, total]
      exact .fresh (idle status)
  | failed status text =>
      exact .again ⟨target, .error, _, _, some text⟩ rfl (idle status)
  | receiving _ behind =>
      exact .transfer ⟨target, .receiving, _, _, none⟩ rfl behind message
  | rebooting _ complete =>
      rw [← complete]
      exact .activation ⟨target, .rebooting, _, _, none⟩ rfl message

end Pictures

/-! ## Handlers -/

section Handlers
variable {target : Target} {manager : OtaManager} {session : SessionState}
  {last : Option ProgressReport}

theorem Talks.queried {phase : Phase} {announcement : Announcement}
    (talks : Talks target manager ⟨⟨phase, some announcement⟩, last⟩)
    (pictures : Pictures target manager phase last) :
    Talks target manager.ready.maxFirmwareSize.2 ⟨⟨.closed, some announcement⟩, last⟩ ∧
      Failure last manager.ready.receivedChunks manager.ready.totalChunks
        "Firmware too large for target" := by
  have ready : Talks target manager.ready ⟨⟨.closed, some announcement⟩, last⟩ ∧
      Failure last manager.ready.receivedChunks manager.ready.totalChunks
        "Firmware too large for target" := by
    unfold OtaManager.ready
    by_cases idle : manager.status = .idle
    · rw [if_neg (not_not.mpr idle)]
      refine ⟨?_, pictures.failure fun _ => by simp [idleErrors]⟩
      cases pictures.mirrors with
      | closed _ => exact talks
      | receiving status _ _ _ => cases idle.symm.trans status
      | rebooting status => cases idle.symm.trans status
    · rw [if_pos idle]
      refine ⟨talks.of_call rfl rfl rfl .abort, ?_⟩
      cases pictures with
      | fresh status _ _ => exact absurd status idle
      | failed status _ => exact absurd status idle
      | receiving _ _ => exact .preempted _ (Or.inl rfl)
      | rebooting _ _ => exact .preempted _ (Or.inr rfl)
  exact ⟨ready.1.of_call rfl rfl rfl (.maxFirmwareSize _), ready.2⟩

theorem handleBegin_converses {phase : Phase} {announcement : Announcement}
    (talks : Talks target manager ⟨⟨phase, some announcement⟩, last⟩)
    (pictures : Pictures target manager phase last) :
    Converses target (manager.handleBegin announcement.firmwareSize announcement.firmwareCrc32
      announcement.totalChunks) := by
  obtain ⟨queried, unfit⟩ := talks.queried pictures
  let announced : OtaManager := manager.ready.maxFirmwareSize.2.announce
    announcement.firmwareCrc32 announcement.totalChunks
  have preparing : Talks target (announced.transitionTo .preparing none)
      ⟨⟨.closed, some announcement⟩,
        some ⟨target, .preparing, 0, announcement.totalChunks, none⟩⟩ :=
    @Talks.transitionTo target announced _ _ ⟨queried.bound, queried.target_eq, queried.run⟩
      .preparing none (.preparing _ pictures.atRest)
  have outcome := manager.handleBegin_outcome announcement.firmwareSize
    announcement.firmwareCrc32 announcement.totalChunks
  generalize manager.handleBegin _ _ _ = after at outcome ⊢
  cases outcome with
  | unfit _ => exact queried.failIdle unfit
  | @refused after _ asked =>
      have kept := (transitionTo_same announced .preparing none).trans asked.same
      refine (preparing.asked asked (.begin false)).abandon ?_
      rw [kept.receivedChunks, kept.totalChunks]
      exact .erase ⟨target, .preparing, 0, announcement.totalChunks, none⟩ rfl
  | @begun after _ asked =>
      have kept := (transitionTo_same announced .preparing none).trans asked.same
      have final := transitionTo_same after .receiving none
      have received : after.receivedChunks = 0 := kept.receivedChunks
      have total : after.totalChunks = announcement.totalChunks := kept.totalChunks
      have told := (preparing.asked asked (.begin true)).transitionTo .receiving none
        (by rw [received, total]; exact .receiving announcement)
      have mirrored : Mirrors (after.transitionTo .receiving none)
          (.receiving ⟨announcement, []⟩) :=
        .receiving final.status (final.expectedCrc32.trans kept.expectedCrc32)
          (final.totalChunks.trans total) (final.receivedChunks.trans received)
      refine ⟨_, told, ?_⟩
      rw [show after.totalChunks = _ from final.totalChunks.symm,
        show after.receivedChunks = _ from final.receivedChunks.symm]
      exact .receiving mirrored (.refl _ _)

theorem counted_converses {session : Session} {handling : Option Announcement}
    {reported before : UInt16} {since : Nat}
    (talks : Talks target manager ⟨⟨.receiving session, handling⟩,
      some ⟨target, .receiving, reported, manager.totalChunks, none⟩⟩)
    (mirrors : Mirrors manager (.receiving session))
    (behind : Behind manager.totalChunks reported before since)
    (count : manager.receivedChunks = before + 1) :
    Converses target
      (if manager.receivedChunks = manager.totalChunks ∨
          manager.receivedChunks.toNat % kProgressReportInterval = 0 then
        manager.sendReport none
      else manager) := by
  cases mirrors with
  | receiving status crc total received =>
      have mirrors : Mirrors manager (.receiving session) := .receiving status crc total received
      split
      next due =>
        have kept := sendReport_same manager none
        have allowed : Reports target (.receiving session)
            (some ⟨target, .receiving, reported, manager.totalChunks, none⟩)
            ⟨target, manager.status, manager.receivedChunks, manager.totalChunks, none⟩ := by
          rw [status, received, total]
          exact .progress (total ▸ behind) (received.symm.trans count) (total ▸ received ▸ due)
        refine ⟨_, talks.sendReport none allowed, ?_⟩
        rw [status, ← kept.totalChunks, ← kept.receivedChunks]
        exact .receiving (mirrors.of_same kept) (.refl _ _)
      next quiet =>
        have later := behind.next (count ▸ quiet)
        exact ⟨_, talks, .receiving mirrors (count ▸ later)⟩

theorem handleData_converses (talks : Talks target manager ⟨session, last⟩)
    (pictures : Pictures target manager session.phase last) (chunkIndex : UInt16)
    (data : Option Bytes) : Converses target (manager.handleData chunkIndex data) := by
  obtain ⟨phase, handling⟩ := session
  have failing {message : String} (status : manager.status = .receiving) :
      Failure last manager.receivedChunks manager.totalChunks message :=
    pictures.failure fun idle => by cases idle.symm.trans status
  have outcome := manager.handleData_outcome chunkIndex data
  generalize manager.handleData _ _ = after at outcome ⊢
  cases outcome with
  | ignored _ => exact ⟨_, talks, pictures⟩
  | misplaced status _ => exact talks.abandon (failing status)
  | empty status _ _ => exact talks.abandon (failing status)
  | refused status index nonEmpty asked =>
      obtain ⟨session, rfl, _, _, received⟩ := pictures.mirrors.receiving_of_status status
      obtain rfl : chunkIndex = session.nextIndex := index.trans received
      refine (talks.asked asked (.writeChunk false nonEmpty trivial)).abandon ?_
      rw [asked.same.receivedChunks, asked.same.totalChunks]
      exact failing status
  | @written after status index nonEmpty asked =>
      obtain ⟨session, rfl, crc, total, received⟩ := pictures.mirrors.receiving_of_status status
      obtain rfl : chunkIndex = session.nextIndex := index.trans received
      have written := talks.asked asked (.writeChunk true nonEmpty trivial)
      have same : after.countChunk.totalChunks = manager.totalChunks := asked.same.totalChunks
      have count : after.countChunk.receivedChunks = manager.receivedChunks + 1 :=
        congrArg (· + 1) asked.same.receivedChunks
      have mirrors : Mirrors after.countChunk (.receiving (session.write (data.getD []))) := by
        refine .receiving (asked.same.status.trans status) (asked.same.expectedCrc32.trans crc)
          (same.trans total) (count.trans ?_)
        rw [Session.nextIndex_write, received]
      cases pictures with
      | receiving _ behind =>
          rw [← same] at behind written
          exact counted_converses ⟨written.bound, written.target_eq, written.run⟩ mirrors behind
            count

structure Tallied (target : Target) (manager : OtaManager) (session : SessionState)
    (status : OtaStatus) (count : UInt16) : Prop where
  talks : Talks target manager ⟨session, some ⟨target, status, count, count, none⟩⟩
  received : manager.receivedChunks = count
  total : manager.totalChunks = count

namespace Tallied
variable {after : OtaManager} {status : OtaStatus} {count : UInt16} {next : SessionState}

theorem asked (tallied : Tallied target manager session status count) {call : Bool → WriterCall}
    {answer : Bool} (asked : Asked manager call answer after)
    (step : SessionStep unlimited session (.call (call answer)) next) :
    Tallied target after next status count :=
  ⟨tallied.talks.asked asked step, asked.same.receivedChunks.trans tallied.received,
    asked.same.totalChunks.trans tallied.total⟩

theorem transitionTo (tallied : Tallied target manager session status count)
    (newStatus : OtaStatus)
    (reports : Reports target session.phase (some ⟨target, status, count, count, none⟩)
      ⟨target, newStatus, count, count, none⟩) :
    Tallied target (manager.transitionTo newStatus none) session newStatus count := by
  have kept := transitionTo_same manager newStatus none
  have told := tallied.talks.transitionTo newStatus none
    (by rw [tallied.received, tallied.total]; exact reports)
  rw [tallied.received, tallied.total] at told
  exact ⟨told, kept.receivedChunks.trans tallied.received, kept.totalChunks.trans tallied.total⟩

theorem abandon (tallied : Tallied target manager session status count) {message : String}
    (failure : Failure (some ⟨target, status, count, count, none⟩) count count message) :
    Converses target (manager.abandon message) := by
  refine tallied.talks.abandon ?_
  rw [tallied.received, tallied.total]
  exact failure

end Tallied

theorem handleEnd_converses (talks : Talks target manager ⟨session, last⟩)
    (pictures : Pictures target manager session.phase last) :
    Converses target manager.handleEnd := by
  obtain ⟨phase, handling⟩ := session
  have outcome := manager.handleEnd_outcome
  generalize manager.handleEnd = after at outcome ⊢
  by_cases status : manager.status = .receiving
  swap
  · cases outcome with
    | ignored _ => exact ⟨_, talks, pictures⟩
    | _ => contradiction
  by_cases count : manager.receivedChunks = manager.totalChunks
  swap
  · cases outcome with
    | ignored other => exact absurd status other
    | miscounted _ _ =>
        exact talks.abandon (pictures.failure fun idle => by cases idle.symm.trans status)
    | _ => contradiction
  obtain ⟨session, rfl, crc, total, received⟩ := pictures.mirrors.receiving_of_status status
  have complete : session.nextIndex = session.announcement.totalChunks :=
    complete_of_count total received count
  -- a complete count was due, and so it is the last that was reported
  have shown : last = some ⟨target, .receiving, session.nextIndex, session.nextIndex, none⟩ := by
    cases pictures with
    | receiving _ behind => rw [← behind.eq_of_due (Or.inl count), ← received, ← count]
  have tallied : Tallied target manager ⟨.receiving session, handling⟩ .receiving
      session.nextIndex :=
    ⟨shown ▸ talks, received, count.symm.trans received⟩
  have verifying {finished : OtaManager} (finish : Asked manager .finish true finished) :=
    (tallied.asked finish (.finish true complete)).transitionTo .verifying (.verifying complete)
  have rebooting {finished verified : OtaManager} (finish : Asked manager .finish true finished)
      (verify : Asked (finished.transitionTo .verifying none)
        (.verify session.announcement.firmwareCrc32) true verified) :=
    (((verifying finish).asked verify (.verify true)).transitionTo .applying
      .applying).transitionTo .rebooting .rebooting
  cases outcome with
  | ignored other => exact absurd status other
  | miscounted _ other => exact absurd count other
  | unfinished _ _ finish =>
      exact (tallied.asked finish (.finish false complete)).abandon
        (.transfer ⟨target, .receiving, _, _, none⟩ rfl (.refl _ _) _)
  | unverified _ _ finish verify =>
      rw [crc] at verify
      exact ((verifying finish).asked verify (.verify false)).abandon
        (.verification ⟨target, .verifying, _, _, none⟩ rfl)
  | inactive _ _ finish verify activate =>
      rw [crc] at verify
      exact ((rebooting finish verify).asked activate (.activate false)).abandon
        (.activation ⟨target, .rebooting, _, _, none⟩ rfl _)
  | activated _ _ finish verify activate =>
      rw [crc] at verify
      have activated := (rebooting finish verify).asked activate (.activate true)
      refine ⟨_, activated.talks, ?_⟩
      rw [← activated.received]
      exact .rebooting (activate.same.status.trans (transitionTo_same _ .rebooting none).status)
        (activated.received.trans activated.total.symm)

theorem handleAbort_converses (talks : Talks target manager ⟨session, last⟩)
    (pictures : Pictures target manager session.phase last) (reason : Option String) :
    Converses target (manager.handleAbort reason) := by
  unfold handleAbort
  split
  · exact ⟨_, talks, pictures⟩
  next busy => exact talks.abandon (pictures.failure fun idle => absurd idle busy)

end Handlers

/-! ## Runs -/

theorem Converses.handle {target : Target} {manager : OtaManager}
    (converses : Converses target manager) (input : OtaInput) :
    Converses target (manager.handle input) := by
  obtain ⟨⟨⟨phase, handling⟩, last⟩, talks, pictures⟩ := converses
  have entered : Talks target (manager.record (.input input)) ⟨⟨phase, input.announcement⟩, last⟩ :=
    ⟨talks.bound, talks.target_eq,
      talks.run.snoc (.silent (.input input pictures.mirrors.settled) rfl)⟩
  have shown : Pictures target (manager.record (.input input)) phase last := by
    cases pictures with
    | fresh status received total => exact .fresh status received total
    | failed status message => exact @Pictures.failed target (manager.record _) status message
    | receiving mirrors behind =>
        exact .receiving (mirrors.of_same ⟨rfl, rfl, rfl, rfl⟩) behind
    | rebooting status complete => exact .rebooting status complete
  cases input with
  | beginMessage message =>
      exact @handleBegin_converses target _ last phase
        ⟨message.firmwareSize, message.firmwareCrc32, message.totalChunks⟩ entered shown
  | beginValues firmwareSize firmwareCrc32 totalChunks =>
      exact @handleBegin_converses target _ last phase
        ⟨firmwareSize, firmwareCrc32, totalChunks⟩ entered shown
  | dataMessage message =>
      rw [OtaManager.handle, dispatch, handleDataMessage]
      split
      · exact entered.abandon (shown.failure fun _ => by simp [idleErrors])
      · exact handleData_converses entered shown _ _
  | dataValues _ _ => exact handleData_converses entered shown _ _
  | endMessage _ => exact handleEnd_converses entered shown
  | endValues => exact handleEnd_converses entered shown
  | abortMessage _ => exact handleAbort_converses entered shown _
  | abortValues _ => exact handleAbort_converses entered shown _

theorem Converses.run {target : Target} {manager : OtaManager}
    (converses : Converses target manager) (inputs : List OtaInput) :
    Converses target (manager.run inputs) := by
  induction inputs generalizing manager with
  | nil => exact converses
  | cons input rest ih => exact ih (converses.handle input)

theorem converses_new (target : Target) (writer : FlashWriter) :
    Converses target (new target true writer) :=
  ⟨_, ⟨rfl, rfl, .nil⟩, .fresh rfl rfl rfl⟩

/-- **The reports are an account of the sessions.**  In every run each report is
allowed by what the writer has answered so far and by the report before it. -/
theorem run_converses (target : Target) (writer : FlashWriter) (inputs : List OtaInput) :
    Converses target ((new target true writer).run inputs) :=
  (converses_new target writer).run inputs

def lastReport (manager : OtaManager) : Option ProgressReport := (reportsOf manager.trace).getLast?

/-- The status of the manager, as the last report tells it. -/
def statusTold : Option ProgressReport → OtaStatus
  | none => .idle
  | some report => if report.status = .error then .idle else report.status

theorem Converses.lastReport_pictures {target : Target} {manager : OtaManager}
    (converses : Converses target manager) :
    manager.status = statusTold manager.lastReport ∧ AtRest manager.lastReport ∧
    (manager.lastReport = none → manager.totalChunks = 0 ∧ manager.receivedChunks = 0) ∧
    ∀ report, manager.lastReport = some report →
      report.target = target ∧ report.totalChunks = manager.totalChunks ∧
      ∃ since < kProgressReportInterval,
        manager.receivedChunks = report.receivedChunks + UInt16.ofNat since := by
  obtain ⟨⟨⟨phase, handling⟩, last⟩, talks, pictures⟩ := converses
  have shown : manager.lastReport = last := talks.run.last_eq.symm
  rw [shown]
  dsimp only at pictures
  have rest := pictures.atRest
  clear talks shown
  have exact_count (count : UInt16) :
      ∃ since < kProgressReportInterval, count = count + UInt16.ofNat since :=
    ⟨0, by decide, (UInt16.add_zero count).symm⟩
  cases pictures with
  | fresh status received total => exact ⟨status, rest, fun _ => ⟨total, received⟩, nofun⟩
  | failed status _ =>
      refine ⟨status, rest, nofun, ?_⟩
      rintro _ ⟨⟩
      exact ⟨rfl, rfl, exact_count _⟩
  | receiving mirrors behind =>
      cases mirrors with
      | receiving status _ _ _ =>
          refine ⟨status, rest, nofun, ?_⟩
          rintro _ ⟨⟩
          exact ⟨rfl, rfl, _, behind.lt_interval, behind.received_eq⟩
  | rebooting status complete =>
      refine ⟨status, rest, nofun, ?_⟩
      rintro _ ⟨⟩
      exact ⟨rfl, complete, exact_count _⟩

/-- **The host is never far behind.**  Between two messages the last report gives the
status and the announced number of chunks, and of the chunks taken all but the last
forty-nine.  It is of a session that is open or activated or of an error; where there is
none, nothing has been announced and nothing taken. -/
theorem last_report_pictures (target : Target) (writer : FlashWriter) (inputs : List OtaInput) :
    let manager := (new target true writer).run inputs
    manager.status = statusTold manager.lastReport ∧ AtRest manager.lastReport ∧
    (manager.lastReport = none → manager.totalChunks = 0 ∧ manager.receivedChunks = 0) ∧
    ∀ report, manager.lastReport = some report →
      report.target = target ∧ report.totalChunks = manager.totalChunks ∧
      ∃ since < kProgressReportInterval,
        manager.receivedChunks = report.receivedChunks + UInt16.ofNat since :=
  ((converses_new target writer).run inputs).lastReport_pictures

end OtaManager

end Libcomm
