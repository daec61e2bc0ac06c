import Libcomm.OtaProtocol

/-!
# Messages outside a session

What the manager makes of data, end and abort messages while it expects no
chunk: the two overloads of `handleData` are compared in every state, and the
messages that are still in flight when a new image has been activated are
followed until the device reboots.
-/

set_option autoImplicit false

namespace Libcomm

namespace OtaManager

/-! ## The overloads of `handleData` -/

theorem handleData_of_not_receiving {manager : OtaManager} (status : manager.status ≠ .receiving)
    (chunkIndex : UInt16) (data : Option Bytes) :
    manager.handleData chunkIndex data = manager :=
  if_pos status

theorem handleDataMessage_of_data (manager : OtaManager) {message : OtaData}
    (filled : message.data.getD [] ≠ []) :
    manager.handleDataMessage message = manager.handleData message.chunkIndex message.data :=
  if_neg fun zero => filled (List.length_eq_zero_iff.mp zero)

theorem handleDataMessage_of_empty (manager : OtaManager) {message : OtaData}
    (empty : message.data.getD [] = []) :
    manager.handleDataMessage message = manager.abandon "Empty chunk data" :=
  if_pos (List.length_eq_zero_iff.mpr empty)

theorem handleData_of_empty {manager : OtaManager} {chunkIndex : UInt16} {data : Option Bytes}
    (status : manager.status = .receiving) (empty : data.getD [] = []) :
    manager.handleData chunkIndex data =
      manager.abandon (if chunkIndex = manager.receivedChunks then "Empty chunk data"
        else "Unexpected chunk index") := by
  have outcome := manager.handleData_outcome chunkIndex data
  generalize manager.handleData chunkIndex data = after at outcome ⊢
  cases outcome with
  | ignored other => exact absurd status other
  | misplaced _ index => rw [if_neg index]
  | empty _ index _ => rw [if_pos index]
  | refused _ _ filled _ => exact absurd empty filled
  | written _ _ filled _ => exact absurd empty filled

theorem abandon_ne (manager : OtaManager) (errorMessage : String) :
    manager.abandon errorMessage ≠ manager := by
  intro same
  have traces := congrArg OtaManager.trace same
  rw [abandon_eq] at traces
  have lengths := congrArg List.length traces
  simp only [List.length_append, List.length_cons] at lengths
  omega

theorem abandon_eq_iff (manager : OtaManager) (first second : String) :
    manager.abandon first = manager.abandon second ↔
      first = second ∨ manager.sendProgress = false := by
  constructor
  · intro same
    have traces := congrArg OtaManager.trace same
    rw [abandon_eq, abandon_eq] at traces
    have events := List.append_cancel_left traces
    cases bound : manager.sendProgress with
    | false => exact Or.inr rfl
    | true =>
        simp only [reportEvents, bound, if_true] at events
        have texts : ∀ text, Event.report ⟨manager.target, .error, manager.receivedChunks,
            manager.totalChunks, some first⟩ = .report ⟨manager.target, .error,
              manager.receivedChunks, manager.totalChunks, some text⟩ → first = text := by
          rintro _ ⟨⟩
          rfl
        exact Or.inl (texts second (List.head_eq_of_cons_eq (List.tail_eq_of_cons_eq events)))
  · rintro (rfl | unbound)
    · rfl
    · rw [abandon_eq, abandon_eq]
      simp only [reportEvents, unbound, Bool.false_eq_true, if_false]

/-- **Exactly when the overloads of `handleData` agree**, with the same calls of
the writer, the same reports and the same state afterwards, and nothing done
while no chunk is expected: the chunk has data, or it is the expected one in a
session, or it is another one in a session and nobody hears which text is
reported. -/
theorem handleData_overloads_agree_iff (manager : OtaManager) (message : OtaData) :
    (manager.handleDataMessage message = manager.handleData message.chunkIndex message.data ∧
      (manager.status ≠ .receiving →
        manager.handleDataMessage message = manager ∧
          manager.handleData message.chunkIndex message.data = manager)) ↔
    message.data.getD [] ≠ [] ∨
      manager.status = .receiving ∧
        (message.chunkIndex = manager.receivedChunks ∨ manager.sendProgress = false) := by
  by_cases empty : message.data.getD [] = []
  · rw [handleDataMessage_of_empty manager empty]
    by_cases status : manager.status = .receiving
    · rw [handleData_of_empty status empty, abandon_eq_iff]
      simp only [empty, status, ne_eq, not_true_eq_false, false_implies, and_true, true_and,
        false_or]
      by_cases index : message.chunkIndex = manager.receivedChunks
      · simp [index]
      · simp [index]
    · rw [handleData_of_not_receiving status]
      constructor
      · intro agree
        obtain ⟨same, _⟩ := agree
        exact absurd same (abandon_ne manager _)
      · intro condition
        rcases condition with filled | ⟨receiving, _⟩
        · exact absurd empty filled
        · exact absurd receiving status
  · rw [handleDataMessage_of_data manager empty]
    refine ⟨fun _ => Or.inl empty, fun _ => ⟨rfl, fun status => ?_⟩⟩
    exact ⟨handleData_of_not_receiving status _ _, handleData_of_not_receiving status _ _⟩

/-- An idle manager and a message without data. -/
theorem handleData_overloads_differ_when_idle :
    let manager := (new .stm32 true willingWriter).run []
    let message : OtaData := ⟨.stm32, 0, none⟩
    manager.handleDataMessage message ≠ manager.handleData message.chunkIndex message.data ∧
      (manager.handleDataMessage message).trace =
        [.call .abort, .report ⟨.stm32, .error, 0, 0, some "Empty chunk data"⟩] :=
  ⟨fun same => absurd (congrArg OtaManager.trace same) (by decide), rfl⟩

/-! ## After an activation -/

end OtaManager

/-- Data and end messages, apart from a data message without data. -/
def OtaInput.Straggler : OtaInput → Prop
  | .dataMessage message => message.data.getD [] ≠ []
  | .dataValues _ _ => True
  | .endMessage _ => True
  | .endValues => True
  | _ => False

def OtaInput.abortReason : OtaInput → Option (Option String)
  | .abortMessage message => some message.reason
  | .abortValues reason => some reason
  | _ => none

namespace OtaManager

theorem handle_straggler {manager : OtaManager} (status : manager.status = .rebooting)
    {input : OtaInput} (straggler : input.Straggler) :
    manager.handle input = manager.record (.input input) := by
  have closed : (manager.record (.input input)).status ≠ .receiving := by
    rw [show (manager.record (.input input)).status = .rebooting from status]
    decide
  cases input with
  | dataMessage message =>
      exact (handleDataMessage_of_data _ straggler).trans
        (handleData_of_not_receiving closed _ _)
  | dataValues chunkIndex data => exact handleData_of_not_receiving closed _ _
  | endMessage _ => exact if_pos closed
  | endValues => exact if_pos closed
  | beginMessage _ => exact straggler.elim
  | beginValues _ _ _ => exact straggler.elim
  | abortMessage _ => exact straggler.elim
  | abortValues _ => exact straggler.elim

theorem run_stragglers {manager : OtaManager} (status : manager.status = .rebooting)
    (late : List OtaInput) (stragglers : ∀ input ∈ late, input.Straggler) :
    manager.run late = { manager with trace := manager.trace ++ late.map Event.input } := by
  induction late generalizing manager with
  | nil => simp [run]
  | cons input rest ih =>
      have first := handle_straggler status (stragglers input List.mem_cons_self)
      have others := fun other member => stragglers other (List.mem_cons_of_mem input member)
      have next : (manager.record (.input input)).status = .rebooting := status
      rw [show manager.run (input :: rest) = (manager.handle input).run rest from rfl, first,
        ih next others]
      simp [record]

theorem handle_abort {manager : OtaManager} (busy : manager.status ≠ .idle) {input : OtaInput}
    {reason : Option String} (aborts : input.abortReason = some reason) :
    manager.handle input =
      { manager with
        status := .idle
        trace := manager.trace ++ .input input :: .call .abort ::
          manager.reportEvents .error (some (reason.getD "Aborted by host")) } := by
  have handled : manager.handle input = (manager.record (.input input)).handleAbort reason := by
    cases input with
    | abortMessage message => cases aborts; rfl
    | abortValues _ => cases aborts; rfl
    | _ => cases aborts
  have open_ : ¬ (manager.record (.input input)).status = .idle := busy
  rw [handled, handleAbort, if_neg open_, abandon_eq, reportEvents_record]
  simp [record]

/-- **After an activation** the status is `rebooting`; late data and end messages
are noted and nothing else; an abort is obeyed as in any session, with one call
of the writer and one report, and leaves the manager idle. -/
theorem activated_manager_waits (target : Target) (sendProgress : Bool) (writer : FlashWriter)
    (inputs : List OtaInput)
    (activated : Activated ((new target sendProgress writer).run inputs).trace)
    (late : List OtaInput) (stragglers : ∀ input ∈ late, input.Straggler) :
    let manager := (new target sendProgress writer).run inputs
    manager.status = .rebooting ∧
    manager.run late = { manager with trace := manager.trace ++ late.map Event.input } ∧
    ∀ input reason, input.abortReason = some reason →
      (manager.run late).handle input =
        { manager with
          status := .idle
          trace := manager.trace ++ late.map Event.input ++ .input input :: .call .abort ::
            manager.reportEvents .error (some (reason.getD "Aborted by host")) } := by
  intro manager
  have status : manager.status = .rebooting := by
    apply (status_rebooting_iff
      (run_settles_unlimited target sendProgress writer inputs)).mpr
    obtain ⟨before, after, whole, none⟩ := activated
    exact ⟨before, after, whole, by simp [none]⟩
  have waits := run_stragglers status late stragglers
  refine ⟨status, waits, ?_⟩
  intro input reason aborts
  have busy : (manager.run late).status ≠ .idle := by
    rw [waits]
    simp only [status]
    decide
  rw [handle_abort busy aborts, waits]
  rfl

def lateMessages : List OtaInput :=
  [.dataMessage ⟨.stm32, 1, some [0]⟩, .dataValues 0 none, .endMessage ⟨.stm32⟩]

theorem activated_manager_waits_small_upload :
    let manager := (new .stm32 true willingWriter).run smallUpload
    manager.status = .rebooting ∧
    manager.run lateMessages =
      { manager with trace := manager.trace ++ lateMessages.map Event.input } ∧
    ∀ input reason, input.abortReason = some reason →
      (manager.run lateMessages).handle input =
        { manager with
          status := .idle
          trace := manager.trace ++ lateMessages.map Event.input ++ .input input ::
            .call .abort :: manager.reportEvents .error
              (some (reason.getD "Aborted by host")) } :=
  activated_manager_waits .stm32 true willingWriter smallUpload
    ⟨_, [], rfl, rfl⟩ lateMessages (by simp [lateMessages, OtaInput.Straggler])

/-- An abort that arrives between the activation and the reboot. -/
theorem abort_leaves_rebooting :
    let manager := (new .stm32 true willingWriter).run smallUpload
    Activated manager.trace ∧
    ¬ ∀ late : List OtaInput,
      (∀ input ∈ late, (∃ message, input = .dataMessage message) ∨
        (∃ message, input = .endMessage message) ∨ ∃ message, input = .abortMessage message) →
      callsOf (manager.run late).trace = callsOf manager.trace ∧
        (manager.run late).status = manager.status := by
  refine ⟨⟨_, [], rfl, rfl⟩, fun stays => ?_⟩
  have status := (stays [.abortMessage ⟨.stm32, none⟩] (by simp)).2
  exact absurd status (by decide)

end OtaManager

end Libcomm
