import Libcomm.OtaHandlers
import Libcomm.Library.LabelledRun
import Mathlib.Data.List.Induction

/-!
# Flash sessions

What the update manager is for, as a protocol over the events of its trace: a
session is begun for the image that a handler announced, written chunk by chunk,
finished, verified and activated, and a refused call is followed by an abort.
The manager refines the protocol: every run of it is a run of the protocol, and
whenever a handler returns its status shows the phase of the session.
-/

set_option autoImplicit false

namespace Libcomm

open LabelledRun

/-! ## The protocol -/

/-- What a begin message says about the image. -/
structure Announcement where
  firmwareSize : UInt32
  firmwareCrc32 : UInt32
  totalChunks : UInt16
  deriving DecidableEq, Repr

def OtaInput.announcement : OtaInput → Option Announcement
  | .beginMessage message =>
      some ⟨message.firmwareSize, message.firmwareCrc32, message.totalChunks⟩
  | .beginValues firmwareSize firmwareCrc32 totalChunks =>
      some ⟨firmwareSize, firmwareCrc32, totalChunks⟩
  | _ => none

/-- The chunk that an input carries, nothing being read from a null pointer. -/
def OtaInput.chunk : OtaInput → Option (UInt16 × Bytes)
  | .dataMessage message => some (message.chunkIndex, message.data.getD [])
  | .dataValues chunkIndex data => some (chunkIndex, data.getD [])
  | _ => none

structure Session where
  announcement : Announcement
  chunks : List Bytes

namespace Session

def nextIndex (session : Session) : UInt16 := UInt16.ofNat session.chunks.length

def write (session : Session) (data : Bytes) : Session :=
  { session with chunks := session.chunks ++ [data] }

@[simp] theorem nextIndex_write (session : Session) (data : Bytes) :
    (session.write data).nextIndex = session.nextIndex + 1 := by
  simp [nextIndex, write]

end Session

inductive Phase where
  | closed
  /-- The writer has refused a call. -/
  | failing
  | receiving (session : Session)
  | finished (session : Session)
  | verified (session : Session)
  | rebooting

namespace Phase

/-- The phases in which a handler may return. -/
inductive Settled : Phase → Prop where
  | closed : Settled .closed
  | receiving (session : Session) : Settled (.receiving session)
  | rebooting : Settled .rebooting

def answered : Bool → Phase → Phase
  | true, next => next
  | false, _ => .failing

@[simp] theorem answered_true (next : Phase) : answered true next = next := rfl

@[simp] theorem answered_false (next : Phase) : answered false next = .failing := rfl

end Phase

structure SessionState where
  phase : Phase
  handling : Option Announcement

/-- The steps of the protocol.  A chunk is written only while there is `room`
for it, and nothing but an abort follows a refused call. -/
inductive SessionStep (room : Session → Prop) : SessionState → Event → SessionState → Prop where
  | input {phase : Phase} {handling : Option Announcement} (input : OtaInput)
      (settled : phase.Settled) :
      SessionStep room ⟨phase, handling⟩ (.input input) ⟨phase, input.announcement⟩
  | report {phase : Phase} {handling : Option Announcement} (report : ProgressReport)
      (responding : phase ≠ .failing) :
      SessionStep room ⟨phase, handling⟩ (.report report) ⟨phase, handling⟩
  | maxFirmwareSize {announcement : Announcement} (answer : UInt32) :
      SessionStep room ⟨.closed, some announcement⟩ (.call (.maxFirmwareSize answer))
        ⟨.closed, some announcement⟩
  | begin {announcement : Announcement} (answer : Bool) :
      SessionStep room ⟨.closed, some announcement⟩
        (.call (.begin announcement.firmwareSize answer))
        ⟨.answered answer (.receiving ⟨announcement, []⟩), some announcement⟩
  | writeChunk {session : Session} {handling : Option Announcement} {data : Bytes}
      (answer : Bool) (nonEmpty : data ≠ []) (fits : room session) :
      SessionStep room ⟨.receiving session, handling⟩
        (.call (.writeChunk session.nextIndex data answer))
        ⟨.answered answer (.receiving (session.write data)), handling⟩
  | finish {session : Session} {handling : Option Announcement} (answer : Bool)
      (complete : session.nextIndex = session.announcement.totalChunks) :
      SessionStep room ⟨.receiving session, handling⟩ (.call (.finish answer))
        ⟨.answered answer (.finished session), handling⟩
  | verify {session : Session} {handling : Option Announcement} (answer : Bool) :
      SessionStep room ⟨.finished session, handling⟩
        (.call (.verify session.announcement.firmwareCrc32 answer))
        ⟨.answered answer (.verified session), handling⟩
  | activate {session : Session} {handling : Option Announcement} (answer : Bool) :
      SessionStep room ⟨.verified session, handling⟩ (.call (.activate answer))
        ⟨.answered answer .rebooting, handling⟩
  | abort {phase : Phase} {handling : Option Announcement} :
      SessionStep room ⟨phase, handling⟩ (.call .abort) ⟨.closed, handling⟩

abbrev SessionRun (room : Session → Prop) : List Event → SessionState → Prop :=
  Run (SessionStep room) ⟨.closed, none⟩

/-! ## The manager between handlers -/

/-- The status and the counters show the phase. -/
inductive Mirrors (manager : OtaManager) : Phase → Prop where
  | closed (status : manager.status = .idle) : Mirrors manager .closed
  | receiving {session : Session} (status : manager.status = .receiving)
      (crc : manager.expectedCrc32 = session.announcement.firmwareCrc32)
      (total : manager.totalChunks = session.announcement.totalChunks)
      (received : manager.receivedChunks = session.nextIndex) :
      Mirrors manager (.receiving session)
  | rebooting (status : manager.status = .rebooting) : Mirrors manager .rebooting

/-- The status tells when a session is open for chunks. -/
theorem Mirrors.receiving_of_status {manager : OtaManager} {phase : Phase}
    (mirrors : Mirrors manager phase) (status : manager.status = .receiving) :
    ∃ session, phase = .receiving session ∧
      manager.expectedCrc32 = session.announcement.firmwareCrc32 ∧
      manager.totalChunks = session.announcement.totalChunks ∧
      manager.receivedChunks = session.nextIndex := by
  cases mirrors with
  | closed idle => cases idle.symm.trans status
  | receiving _ crc total received => exact ⟨_, rfl, crc, total, received⟩
  | rebooting other => cases other.symm.trans status

theorem Mirrors.of_same {before after : OtaManager} {phase : Phase}
    (mirrors : Mirrors before phase) (same : before.SameFields after) : Mirrors after phase := by
  cases mirrors with
  | closed status => exact .closed (same.status.trans status)
  | receiving status crc total received =>
      exact .receiving (same.status.trans status) (same.expectedCrc32.trans crc)
        (same.totalChunks.trans total) (same.receivedChunks.trans received)
  | rebooting status => exact .rebooting (same.status.trans status)

theorem Mirrors.settled {manager : OtaManager} {phase : Phase} (mirrors : Mirrors manager phase) :
    phase.Settled := by
  cases mirrors with
  | closed _ => exact .closed
  | receiving _ _ _ _ => exact .receiving _
  | rebooting _ => exact .rebooting

namespace OtaManager

def Settles (room : Session → Prop) (manager : OtaManager) : Prop :=
  ∃ state, SessionRun room manager.trace state ∧ Mirrors manager state.phase

section Handlers
variable {room : Session → Prop} {manager : OtaManager}

/-! ### Shared exits -/

theorem sendReport_run {state : SessionState} (run : SessionRun room manager.trace state)
    (responding : state.phase ≠ .failing) (errorMessage : Option String) :
    SessionRun room (manager.sendReport errorMessage).trace state := by
  unfold sendReport
  split
  · exact .snoc run (.report _ responding)
  · exact run

theorem transitionTo_run {state : SessionState} (run : SessionRun room manager.trace state)
    (responding : state.phase ≠ .failing) (newStatus : OtaStatus)
    (errorMessage : Option String) :
    SessionRun room (manager.transitionTo newStatus errorMessage).trace state :=
  @sendReport_run room { manager with status := newStatus } state run responding errorMessage

theorem failIdle_settles {handling : Option Announcement}
    (run : SessionRun room manager.trace ⟨.closed, handling⟩) (errorMessage : String) :
    (manager.failIdle errorMessage).Settles room :=
  ⟨⟨.closed, handling⟩, transitionTo_run run (by simp) .error (some errorMessage), .closed rfl⟩

theorem abandon_settles {state : SessionState} (run : SessionRun room manager.trace state)
    (errorMessage : String) : (manager.abandon errorMessage).Settles room :=
  @failIdle_settles room (manager.record (.call .abort)) _ (.snoc run .abort) errorMessage

theorem Asked.run {call : Bool → WriterCall} {answer : Bool} {after : OtaManager}
    (asked : Asked manager call answer after) {state next : SessionState}
    (run : SessionRun room manager.trace state)
    (allowed : SessionStep room state (.call (call answer)) next) :
    SessionRun room after.trace next := by
  rw [asked.trace_eq]
  exact .snoc run allowed

/-! ### Handlers -/

theorem ready_run {phase : Phase} {handling : Option Announcement}
    (run : SessionRun room manager.trace ⟨phase, handling⟩) (mirrors : Mirrors manager phase) :
    SessionRun room manager.ready.trace ⟨.closed, handling⟩ := by
  unfold ready
  by_cases idle : manager.status = .idle
  · rw [if_neg (not_not.mpr idle)]
    cases mirrors with
    | closed _ => exact run
    | receiving status _ _ _ => cases idle.symm.trans status
    | rebooting status => cases idle.symm.trans status
  · rw [if_pos idle]
    exact .snoc run .abort

theorem handleBegin_settles {phase : Phase} {announcement : Announcement}
    (run : SessionRun room manager.trace ⟨phase, some announcement⟩)
    (mirrors : Mirrors manager phase) :
    (manager.handleBegin announcement.firmwareSize announcement.firmwareCrc32
      announcement.totalChunks).Settles room := by
  have queried : SessionRun room manager.ready.maxFirmwareSize.2.trace
      ⟨.closed, some announcement⟩ :=
    .snoc (ready_run run mirrors) (.maxFirmwareSize _)
  let announced : OtaManager := manager.ready.maxFirmwareSize.2.announce
    announcement.firmwareCrc32 announcement.totalChunks
  have preparing : SessionRun room (announced.transitionTo .preparing none).trace
      ⟨.closed, some announcement⟩ :=
    @transitionTo_run room announced _ queried (by simp) .preparing none
  have outcome := manager.handleBegin_outcome announcement.firmwareSize
    announcement.firmwareCrc32 announcement.totalChunks
  generalize manager.handleBegin _ _ _ = after at outcome ⊢
  cases outcome with
  | unfit _ => exact failIdle_settles queried _
  | refused _ asked => exact abandon_settles (asked.run preparing (.begin false)) _
  | @begun after _ asked =>
      have begun := asked.run preparing (.begin true)
      have kept := (transitionTo_same announced .preparing none).trans asked.same
      have mirrored : Mirrors { after with status := .receiving }
          (.receiving ⟨announcement, []⟩) :=
        .receiving rfl kept.expectedCrc32 kept.totalChunks kept.receivedChunks
      exact ⟨_, transitionTo_run begun (by simp) .receiving none,
        mirrored.of_same (transitionTo_same after .receiving none)⟩

theorem handleData_settles {state : SessionState} (run : SessionRun room manager.trace state)
    (mirrors : Mirrors manager state.phase) (chunkIndex : UInt16) (data : Option Bytes)
    (fits : ∀ session, state.phase = .receiving session → chunkIndex = manager.receivedChunks →
      data.getD [] ≠ [] → room session) :
    (manager.handleData chunkIndex data).Settles room := by
  obtain ⟨phase, handling⟩ := state
  have outcome := manager.handleData_outcome chunkIndex data
  generalize manager.handleData _ _ = after at outcome ⊢
  cases outcome with
  | ignored _ => exact ⟨⟨phase, handling⟩, run, mirrors⟩
  | misplaced _ _ => exact abandon_settles run _
  | empty _ _ _ => exact abandon_settles run _
  | refused status index nonEmpty asked =>
      obtain ⟨session, rfl, _, _, received⟩ := mirrors.receiving_of_status status
      have fitting := fits session rfl index nonEmpty
      obtain rfl : chunkIndex = session.nextIndex := index.trans received
      exact abandon_settles (asked.run run (.writeChunk false nonEmpty fitting)) _
  | @written after status index nonEmpty asked =>
      obtain ⟨session, rfl, crc, total, received⟩ := mirrors.receiving_of_status status
      have fitting := fits session rfl index nonEmpty
      obtain rfl : chunkIndex = session.nextIndex := index.trans received
      have written := asked.run run (.writeChunk true nonEmpty fitting)
      have mirrored : Mirrors after.countChunk (.receiving (session.write (data.getD []))) := by
        refine .receiving ?_ ?_ ?_ ?_
        · exact asked.same.status.trans status
        · exact asked.same.expectedCrc32.trans crc
        · exact asked.same.totalChunks.trans total
        · rw [Session.nextIndex_write, ← received, ← asked.same.receivedChunks]
          rfl
      split
      · exact ⟨_, @sendReport_run room after.countChunk _ written (by simp) none,
          mirrored.of_same (sendReport_same _ none)⟩
      · exact ⟨_, written, mirrored⟩

theorem handleDataMessage_settles {state : SessionState}
    (run : SessionRun room manager.trace state) (mirrors : Mirrors manager state.phase)
    (message : OtaData)
    (fits : ∀ session, state.phase = .receiving session →
      message.chunkIndex = manager.receivedChunks → message.data.getD [] ≠ [] → room session) :
    (manager.handleDataMessage message).Settles room := by
  unfold handleDataMessage
  split
  · exact abandon_settles run _
  · exact handleData_settles run mirrors _ _ fits

theorem complete_of_count {session : Session}
    (total : manager.totalChunks = session.announcement.totalChunks)
    (received : manager.receivedChunks = session.nextIndex)
    (count : manager.receivedChunks = manager.totalChunks) :
    session.nextIndex = session.announcement.totalChunks := by
  rw [← received, count, total]

/-- Up to the activation, `handleEnd` takes a complete session to `verified`. -/
theorem rebooting_run {session : Session} {handling : Option Announcement}
    {finished verified : OtaManager}
    (run : SessionRun room manager.trace ⟨.receiving session, handling⟩)
    (complete : session.nextIndex = session.announcement.totalChunks)
    (finish : Asked manager .finish true finished)
    (verify : Asked (finished.transitionTo .verifying none)
      (.verify session.announcement.firmwareCrc32) true verified) :
    SessionRun room ((verified.transitionTo .applying none).transitionTo .rebooting none).trace
      ⟨.verified session, handling⟩ := by
  have verifying := transitionTo_run (finish.run run (.finish true complete))
    (by simp) .verifying none
  have responding : Phase.verified session ≠ .failing := by simp
  have applying :=
    transitionTo_run (verify.run verifying (.verify true)) responding .applying none
  exact transitionTo_run applying responding .rebooting none

theorem handleEnd_settles {state : SessionState} (run : SessionRun room manager.trace state)
    (mirrors : Mirrors manager state.phase) : manager.handleEnd.Settles room := by
  obtain ⟨phase, handling⟩ := state
  have outcome := manager.handleEnd_outcome
  generalize manager.handleEnd = after at outcome ⊢
  cases outcome with
  | ignored _ => exact ⟨⟨phase, handling⟩, run, mirrors⟩
  | miscounted _ _ => exact abandon_settles run _
  | unfinished status count finish =>
      obtain ⟨session, rfl, _, total, received⟩ := mirrors.receiving_of_status status
      have complete := complete_of_count total received count
      exact abandon_settles (finish.run run (.finish false complete)) _
  | unverified status count finish verify =>
      obtain ⟨session, rfl, crc, total, received⟩ := mirrors.receiving_of_status status
      have complete := complete_of_count total received count
      have verifying := transitionTo_run (finish.run run (.finish true complete))
        (by simp) .verifying none
      rw [crc] at verify
      exact abandon_settles (verify.run verifying (.verify false)) _
  | inactive status count finish verify activate =>
      obtain ⟨session, rfl, crc, total, received⟩ := mirrors.receiving_of_status status
      have complete := complete_of_count total received count
      rw [crc] at verify
      exact abandon_settles
        (activate.run (rebooting_run run complete finish verify) (.activate false)) _
  | activated status count finish verify activate =>
      obtain ⟨session, rfl, crc, total, received⟩ := mirrors.receiving_of_status status
      have complete := complete_of_count total received count
      rw [crc] at verify
      refine ⟨_, activate.run (rebooting_run run complete finish verify) (.activate true),
        .rebooting ?_⟩
      exact activate.same.status.trans (transitionTo_same _ .rebooting none).status

theorem handleAbort_settles {state : SessionState} (run : SessionRun room manager.trace state)
    (mirrors : Mirrors manager state.phase) (reason : Option String) :
    (manager.handleAbort reason).Settles room := by
  unfold handleAbort
  split
  · exact ⟨state, run, mirrors⟩
  · exact abandon_settles run _

end Handlers

/-! ## Runs -/

def Writes (manager : OtaManager) (input : OtaInput) : Prop :=
  manager.status = .receiving ∧
    ∃ data, data ≠ [] ∧ input.chunk = some (manager.receivedChunks, data)

theorem handle_settles {room : Session → Prop} {manager : OtaManager} {state : SessionState}
    (run : SessionRun room manager.trace state) (mirrors : Mirrors manager state.phase)
    (input : OtaInput)
    (fits : ∀ session, state.phase = .receiving session → Writes manager input → room session) :
    (manager.handle input).Settles room := by
  obtain ⟨phase, handling⟩ := state
  have entered : SessionRun room (manager.record (.input input)).trace
      ⟨phase, input.announcement⟩ := .snoc run (.input input mirrors.settled)
  have mirrored : Mirrors (manager.record (.input input)) phase :=
    mirrors.of_same ⟨rfl, rfl, rfl, rfl⟩
  have chunkFits (index : UInt16) (data : Bytes) (chunk : input.chunk = some (index, data))
      (session : Session) (open_ : phase = .receiving session)
      (expected : index = manager.receivedChunks) (nonEmpty : data ≠ []) : room session := by
    subst open_
    cases mirrors with
    | receiving status _ _ _ =>
        exact fits session rfl ⟨status, data, nonEmpty, expected ▸ chunk⟩
  cases input with
  | beginMessage message =>
      have announced : SessionRun room (manager.record (.input (.beginMessage message))).trace
          ⟨phase, some ⟨message.firmwareSize, message.firmwareCrc32, message.totalChunks⟩⟩ :=
        entered
      exact handleBegin_settles announced mirrored
  | beginValues size crc total =>
      have announced : SessionRun room (manager.record (.input (.beginValues size crc total))).trace
          ⟨phase, some ⟨size, crc, total⟩⟩ := entered
      exact handleBegin_settles announced mirrored
  | dataMessage message =>
      exact handleDataMessage_settles entered mirrored message (chunkFits _ _ rfl)
  | dataValues index data =>
      exact handleData_settles entered mirrored index data (chunkFits _ _ rfl)
  | endMessage _ => exact handleEnd_settles entered mirrored
  | endValues => exact handleEnd_settles entered mirrored
  | abortMessage message => exact handleAbort_settles entered mirrored _
  | abortValues reason => exact handleAbort_settles entered mirrored _

theorem handle_begin (manager : OtaManager) {opening : OtaInput} {announcement : Announcement}
    (announces : opening.announcement = some announcement) :
    manager.handle opening =
      (manager.record (.input opening)).handleBegin announcement.firmwareSize
        announcement.firmwareCrc32 announcement.totalChunks := by
  cases opening with
  | beginMessage message => cases announces; rfl
  | beginValues _ _ _ => cases announces; rfl
  | _ => cases announces

theorem handle_chunk (manager : OtaManager) {input : OtaInput} {index : UInt16} {chunk : Bytes}
    (carries : input.chunk = some (index, chunk)) (nonEmpty : chunk ≠ []) :
    ∃ data, data.getD [] = chunk ∧
      manager.handle input = (manager.record (.input input)).handleData index data := by
  cases input with
  | dataMessage message =>
      obtain ⟨rfl, rfl⟩ := Prod.mk.inj (Option.some.inj carries)
      have positive : ¬ (message.data.getD []).length = 0 :=
        fun zero => nonEmpty (List.length_eq_zero_iff.mp zero)
      exact ⟨message.data, rfl, if_neg positive⟩
  | dataValues chunkIndex data =>
      obtain ⟨rfl, rfl⟩ := Prod.mk.inj (Option.some.inj carries)
      exact ⟨data, rfl, rfl⟩
  | _ => cases carries

theorem run_snoc (manager : OtaManager) (inputs : List OtaInput) (input : OtaInput) :
    manager.run (inputs ++ [input]) = (manager.run inputs).handle input := by
  simp [run]

/-- **Every run of the manager is a run of the protocol**, as long as there is
room for each chunk the manager hands to the writer. -/
theorem run_settles (room : Session → Prop) (target : Target) (sendProgress : Bool)
    (writer : FlashWriter) (inputs : List OtaInput)
    (fits : ∀ front input back, inputs = front ++ input :: back →
      ∀ state, SessionRun room ((new target sendProgress writer).run front).trace state →
        Mirrors ((new target sendProgress writer).run front) state.phase →
          ∀ session, state.phase = .receiving session →
            Writes ((new target sendProgress writer).run front) input → room session) :
    ((new target sendProgress writer).run inputs).Settles room := by
  induction inputs using List.reverseRecOn with
  | nil => exact ⟨⟨.closed, none⟩, .nil, .closed rfl⟩
  | append_singleton inputs input ih =>
      have earlier : ((new target sendProgress writer).run inputs).Settles room := by
        apply ih
        intro front other back whole
        exact fits front other (back ++ [input])
          (by rw [whole, List.append_assoc, List.cons_append])
      obtain ⟨state, trace, mirrors⟩ := earlier
      rw [run_snoc]
      exact handle_settles trace mirrors input (fits inputs input [] rfl state trace mirrors)

abbrev unlimited (_ : Session) : Prop := True

theorem run_settles_unlimited (target : Target) (sendProgress : Bool) (writer : FlashWriter)
    (inputs : List OtaInput) : ((new target sendProgress writer).run inputs).Settles unlimited :=
  run_settles unlimited target sendProgress writer inputs
    fun _ _ _ _ _ _ _ _ _ _ => trivial

end OtaManager

end Libcomm
