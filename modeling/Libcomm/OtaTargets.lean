import Libcomm.Library.Unwinding
import Libcomm.OtaLateMessages

/-!
# Messages for the other processor

Both processors are updated with the same four messages, each with a target.  The
manager has a target of its own, which its reports carry, but it compares it with
nothing: a message for the other processor is handled like one for its own.
Deleting such messages goes unseen exactly when each arrives in a state in which
the manager ignores messages of its kind.
-/

set_option autoImplicit false

namespace Libcomm

open Unwinding

/-! ## The messages -/

inductive OtaMessage where
  | otaBegin (message : OtaBegin)
  | otaData (message : OtaData)
  | otaEnd (message : OtaEnd)
  | otaAbort (message : OtaAbort)
  deriving DecidableEq, Repr

namespace OtaMessage

def input : OtaMessage → OtaInput
  | .otaBegin message => .beginMessage message
  | .otaData message => .dataMessage message
  | .otaEnd message => .endMessage message
  | .otaAbort message => .abortMessage message

def target : OtaMessage → Target
  | .otaBegin message => message.target
  | .otaData message => message.target
  | .otaEnd message => message.target
  | .otaAbort message => message.target

def withTarget (target : Target) : OtaMessage → OtaMessage
  | .otaBegin message => .otaBegin { message with target := target }
  | .otaData message => .otaData { message with target := target }
  | .otaEnd message => .otaEnd { message with target := target }
  | .otaAbort message => .otaAbort { message with target := target }

def isFor (target : Target) (message : OtaMessage) : Bool := message.target == target

end OtaMessage

namespace OtaManager

def receive (manager : OtaManager) (message : OtaMessage) : OtaManager :=
  manager.handle message.input

def observed (manager : OtaManager) : List WriterCall × List ProgressReport × OtaStatus :=
  (callsOf manager.trace, reportsOf manager.trace, manager.status)

/-- The managers differ at most in the messages that their histories show. -/
structure Agree (first second : OtaManager) : Prop where
  fields : second = { first with trace := second.trace }
  calls : callsOf second.trace = callsOf first.trace
  reports : reportsOf second.trace = reportsOf first.trace

namespace Agree

theorem equivalence : Equivalence Agree where
  refl _ := ⟨rfl, rfl, rfl⟩
  symm := by
    rintro first second ⟨fields, calls, reports⟩
    refine ⟨?_, calls.symm, reports.symm⟩
    rw [fields]
  trans := by
    rintro first second third ⟨fields, calls, reports⟩ ⟨laterFields, laterCalls, laterReports⟩
    refine ⟨?_, laterCalls.trans calls, laterReports.trans reports⟩
    rw [laterFields, fields]

variable {first second : OtaManager}

theorem observed_eq (agree : Agree first second) : first.observed = second.observed := by
  obtain ⟨fields, calls, reports⟩ := agree
  rw [observed, observed, calls, reports, show second.status = first.status by rw [fields]]

theorem record_input (manager : OtaManager) (input : OtaInput) :
    Agree manager (manager.record (.input input)) :=
  ⟨rfl, (callsOf_append _ _).trans (List.append_nil _),
    (reportsOf_append _ _).trans (List.append_nil _)⟩

theorem dispatch (agree : Agree first second) (input : OtaInput) :
    Agree (first.dispatch input) (second.dispatch input) := by
  obtain ⟨fields, calls, reports⟩ := agree
  set bare : OtaManager := { first with trace := [] }
  have left : first = bare.graft first.trace := by simp [bare, graft]
  have right : second = bare.graft second.trace := by
    rw [fields]
    simp [bare, graft]
  rw [left, right, dispatch_graft, dispatch_graft]
  refine ⟨rfl, ?_, ?_⟩
  · rw [graft_trace, graft_trace, callsOf_append, callsOf_append, calls]
  · rw [graft_trace, graft_trace, reportsOf_append, reportsOf_append, reports]

theorem handle (agree : Agree first second) {input other : OtaInput}
    (alike : ∀ manager : OtaManager, manager.dispatch other = manager.dispatch input) :
    Agree (first.handle input) (second.handle other) := by
  have entered := equivalence.trans (equivalence.symm (record_input first input))
    (equivalence.trans agree (record_input second other))
  rw [OtaManager.handle, OtaManager.handle, alike]
  exact entered.dispatch input

end Agree

/-! ## The target of a message is not read -/

theorem dispatch_withTarget (manager : OtaManager) (target : Target) (message : OtaMessage) :
    manager.dispatch (message.withTarget target).input = manager.dispatch message.input := by
  cases message <;> rfl

theorem receive_retargeted (target : Target) {manager other : OtaManager}
    {messages others : List OtaMessage} (agree : Agree manager other)
    (same : others.map (OtaMessage.withTarget target) =
      messages.map (OtaMessage.withTarget target)) :
    Agree (messages.foldl receive manager) (others.foldl receive other) := by
  induction messages generalizing others manager other with
  | nil =>
      cases List.map_eq_nil_iff.mp same
      exact agree
  | cons message messages ih =>
      obtain ⟨twin, rest, rfl, alike, same⟩ := List.map_eq_cons_iff.mp same
      have alikeDispatched (current : OtaManager) :
          current.dispatch twin.input = current.dispatch message.input := by
        rw [← dispatch_withTarget current target, alike, dispatch_withTarget]
      have received : Agree (manager.receive message) (other.receive twin) :=
        agree.handle alikeDispatched
      have later := ih received same
      exact later

/-! ## Messages that are ignored -/

def Ignores (manager : OtaManager) : OtaMessage → Prop
  | .otaBegin _ => False
  | .otaData message => manager.status ≠ .receiving ∧ message.data.getD [] ≠ []
  | .otaEnd _ => manager.status ≠ .receiving
  | .otaAbort _ => manager.status = .idle

theorem receive_of_ignores {manager : OtaManager} {message : OtaMessage}
    (ignores : manager.Ignores message) :
    manager.receive message = manager.record (.input message.input) := by
  cases message with
  | otaBegin _ => exact absurd ignores id
  | otaData message =>
      obtain ⟨closed, filled⟩ := ignores
      have entered : (manager.record (.input (.dataMessage message))).status ≠ .receiving := closed
      exact (handleDataMessage_of_data _ filled).trans (handleData_of_not_receiving entered _ _)
  | otaEnd _ => exact if_pos ignores
  | otaAbort _ => exact if_pos ignores

def callCount (manager : OtaManager) : Nat := (callsOf manager.trace).length

section CallCount
variable (manager : OtaManager)

@[simp] theorem callCount_record_input (input : OtaInput) :
    (manager.record (.input input)).callCount = manager.callCount := by
  rw [callCount, callCount, record, callsOf_append]
  exact congrArg List.length (List.append_nil _)

@[simp] theorem callCount_record_call (call : WriterCall) :
    (manager.record (.call call)).callCount = manager.callCount + 1 := by
  rw [callCount, record, callsOf_append, List.length_append]
  rfl

@[simp] theorem callCount_sendReport (errorMessage : Option String) :
    (manager.sendReport errorMessage).callCount = manager.callCount := by
  rw [callCount, sendReport_eq, callsOf_append, reportEvents, callCount]
  split <;> simp [callsOf, Event.call?]

@[simp] theorem callCount_transitionTo (newStatus : OtaStatus) (errorMessage : Option String) :
    (manager.transitionTo newStatus errorMessage).callCount = manager.callCount :=
  callCount_sendReport { manager with status := newStatus } errorMessage

@[simp] theorem callCount_failIdle (errorMessage : String) :
    (manager.failIdle errorMessage).callCount = manager.callCount :=
  callCount_transitionTo manager .error (some errorMessage)

@[simp] theorem callCount_abandon (errorMessage : String) :
    (manager.abandon errorMessage).callCount = manager.callCount + 1 := by
  rw [abandon, callCount_failIdle, callCount_record_call]

@[simp] theorem callCount_countChunk : manager.countChunk.callCount = manager.callCount := rfl

@[simp] theorem callCount_announce (firmwareCrc32 : UInt32) (totalChunks : UInt16) :
    (manager.announce firmwareCrc32 totalChunks).callCount = manager.callCount := rfl

theorem callCount_lt_queried : manager.callCount < manager.ready.maxFirmwareSize.2.callCount := by
  have queried : manager.ready.maxFirmwareSize.2.callCount = manager.ready.callCount + 1 :=
    callCount_record_call manager.ready _
  have restarted : manager.callCount ≤ manager.ready.callCount := by
    rw [ready]
    split
    · exact Nat.le_of_lt (Nat.lt_of_lt_of_eq (Nat.lt_succ_self _)
        (callCount_record_call manager .abort).symm)
    · exact Nat.le_refl _
  omega

end CallCount

theorem Asked.callCount_eq {manager after : OtaManager} {call : Bool → WriterCall} {answer : Bool}
    (asked : Asked manager call answer after) : after.callCount = manager.callCount + 1 := by
  rw [callCount, asked.trace_eq, callsOf_append, List.length_append]
  rfl

/-- The writer is called before anything is checked. -/
theorem handleBegin_calls (manager : OtaManager) (firmwareSize firmwareCrc32 : UInt32)
    (totalChunks : UInt16) :
    manager.callCount <
      (manager.handleBegin firmwareSize firmwareCrc32 totalChunks).callCount := by
  have queried := callCount_lt_queried manager
  have outcome := manager.handleBegin_outcome firmwareSize firmwareCrc32 totalChunks
  generalize manager.handleBegin _ _ _ = after at outcome ⊢
  cases outcome with
  | unfit _ => simpa using queried
  | refused _ asked =>
      have called := asked.callCount_eq
      simp only [callCount_transitionTo, callCount_announce, callCount_abandon] at called ⊢
      omega
  | begun _ asked =>
      have called := asked.callCount_eq
      simp only [callCount_transitionTo, callCount_announce] at called ⊢
      omega

theorem handleData_calls {manager : OtaManager} (status : manager.status = .receiving)
    (chunkIndex : UInt16) (data : Option Bytes) :
    manager.callCount < (manager.handleData chunkIndex data).callCount := by
  have outcome := manager.handleData_outcome chunkIndex data
  generalize manager.handleData _ _ = after at outcome ⊢
  cases outcome with
  | ignored other => exact absurd status other
  | misplaced _ _ => simp
  | empty _ _ _ => simp
  | refused _ _ _ asked =>
      rw [callCount_abandon, asked.callCount_eq]
      omega
  | written _ _ _ asked => split <;> simp [asked.callCount_eq]

theorem handleEnd_calls {manager : OtaManager} (status : manager.status = .receiving) :
    manager.callCount < manager.handleEnd.callCount := by
  have outcome := manager.handleEnd_outcome
  generalize manager.handleEnd = after at outcome ⊢
  cases outcome with
  | ignored other => exact absurd status other
  | miscounted _ _ => simp
  | unfinished _ _ finish =>
      rw [callCount_abandon, finish.callCount_eq]
      omega
  | unverified _ _ finish verify =>
      simp only [callCount_abandon, verify.callCount_eq, callCount_transitionTo,
        finish.callCount_eq]
      omega
  | inactive _ _ finish verify activate =>
      simp only [callCount_abandon, activate.callCount_eq, callCount_transitionTo,
        verify.callCount_eq, finish.callCount_eq]
      omega
  | activated _ _ finish verify activate =>
      simp only [activate.callCount_eq, callCount_transitionTo, verify.callCount_eq,
        finish.callCount_eq]
      omega

theorem receive_calls {manager : OtaManager} {message : OtaMessage}
    (heeds : ¬ manager.Ignores message) :
    manager.callCount < (manager.receive message).callCount := by
  have entered := callCount_record_input manager message.input
  rw [← entered]
  cases message with
  | otaBegin message => exact handleBegin_calls _ _ _ _
  | otaData message =>
      by_cases empty : message.data.getD [] = []
      · have refused := handleDataMessage_of_empty (manager.record (.input (.dataMessage message)))
          empty
        rw [receive, OtaMessage.input, handle, dispatch, refused, callCount_abandon]
        exact Nat.lt_succ_self _
      · have receiving : (manager.record (.input (.dataMessage message))).status = .receiving := by
          by_contra closed
          exact heeds ⟨closed, empty⟩
        have passed := handleDataMessage_of_data (manager.record (.input (.dataMessage message)))
          empty
        rw [receive, OtaMessage.input, handle, dispatch, passed]
        exact handleData_calls receiving _ _
  | otaEnd message => exact handleEnd_calls (not_not.mp heeds)
  | otaAbort message =>
      have busy : ¬ (manager.record (.input (.abortMessage message))).status = .idle := heeds
      rw [receive, OtaMessage.input, handle, dispatch, handleAbort, if_neg busy, callCount_abandon]
      exact Nat.lt_succ_self _

/-- **A message goes unseen exactly when the manager ignores it.** -/
theorem receive_unseen_iff (manager : OtaManager) (message : OtaMessage) :
    (manager.receive message).observed = manager.observed ↔ manager.Ignores message := by
  constructor
  · intro unseen
    by_contra heeds
    have calls : (manager.receive message).callCount = manager.callCount :=
      congrArg (fun view => view.1.length) unseen
    exact absurd (receive_calls heeds) (by rw [calls]; exact Nat.lt_irrefl _)
  · intro ignores
    rw [receive_of_ignores ignores]
    exact (Agree.record_input manager message.input).observed_eq.symm

/-! ## Deleting the messages for the other processor -/

theorem receive_unwinds : Unwinds receive observed Agree where
  equivalence := Agree.equivalence
  view_eq := Agree.observed_eq
  consistent _ agree := agree.handle fun _ => rfl
  unseen := by
    intro manager message unseen
    rw [receive_of_ignores ((receive_unseen_iff manager message).mp unseen)]
    exact Agree.equivalence.symm (Agree.record_input manager message.input)

/-- **Messages for the other processor.**  The target of a message is not read, so
exchanging targets changes neither the calls of the writer nor the reports nor the
status.  Deleting the messages for the other processor changes none of them, in no
part of the run, if and only if each of these messages is ignored where it arrives. -/
theorem foreign_messages_unseen_iff (target : Target) (sendProgress : Bool)
    (writer : FlashWriter) (messages : List OtaMessage) :
    let start := new target sendProgress writer
    (∀ others : List OtaMessage, others.map (OtaMessage.withTarget target) =
        messages.map (OtaMessage.withTarget target) →
      (others.foldl receive start).observed = (messages.foldl receive start).observed) ∧
    ((∀ front, front <+: messages →
        ((front.filter (OtaMessage.isFor target)).foldl receive start).observed =
          (front.foldl receive start).observed) ↔
      ∀ front message back, messages = front ++ message :: back → message.target ≠ target →
        (front.foldl receive start).Ignores message) := by
  intro start
  refine ⟨fun others same =>
    (receive_retargeted target (Agree.equivalence.refl start) same).observed_eq.symm, ?_⟩
  rw [receive_unwinds.purge_unseen_iff (OtaMessage.isFor target) start messages]
  constructor
  · intro none front message back whole foreign
    exact (receive_unseen_iff _ message).mp
      (none front message back whole (beq_eq_false_iff_ne.mpr foreign))
  · intro ignored front message back whole foreign
    exact (receive_unseen_iff _ message).mpr
      (ignored front message back whole (beq_eq_false_iff_ne.mp foreign))

def interleaved : List OtaMessage :=
  [.otaBegin ⟨.stm32, 1, 0xD202EF8D, 1⟩, .otaAbort ⟨.esp32, none⟩]

theorem foreign_abort_ends_session :
    let start := new .stm32 true willingWriter
    (interleaved.foldl receive start).status = .idle ∧
      ((interleaved.filter (OtaMessage.isFor .stm32)).foldl receive start).status = .receiving ∧
      callsOf (interleaved.foldl receive start).trace =
        [.maxFirmwareSize 1024, .begin 1 true, .abort] ∧
      callsOf ((interleaved.filter (OtaMessage.isFor .stm32)).foldl receive start).trace =
        [.maxFirmwareSize 1024, .begin 1 true] := by
  decide

end OtaManager

end Libcomm
