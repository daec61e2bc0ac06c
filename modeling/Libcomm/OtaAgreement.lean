import Libcomm.OtaActivation
import Libcomm.OtaConversation

/-!
# What the host can conclude

The last report a host has heard, beside the messages that were handled.  Between two
messages the manager is in one of three states, and the messages so far tell which: an
upload is open, an upload has been activated and only stragglers have come since, or
neither.  The last report tells the same.
-/

set_option autoImplicit false

namespace Libcomm

namespace OtaManager

/-! ## Open and activated uploads -/

/-- The messages end in a begin of an allowed size and some of its non-empty chunks, with
nothing else between them, and the writer has accepted all of it. -/
def EndsInOpenUpload (first : OtaManager) (inputs : List OtaInput) : Prop :=
  ∃ earlier opening data announcement chunks,
    inputs = earlier ++ opening :: data ∧ opening.announcement = some announcement ∧
    Carry data chunks ∧ (∀ chunk ∈ chunks, chunk ≠ []) ∧
    (first.run earlier).Allows announcement.firmwareSize ∧
    ∀ turn < chunks.length + 1, (first.run earlier).writer.answers turn = true

/-- The messages end in an accepted upload, apart from stragglers. -/
def EndsActivated (first : OtaManager) (inputs : List OtaInput) : Prop :=
  ∃ front late, inputs = front ++ late ∧ EndsInUpload first front ∧
    ∀ input ∈ late, input.Straggler

theorem endsActivated_snoc (first : OtaManager) (inputs : List OtaInput) (input : OtaInput) :
    EndsActivated first (inputs ++ [input]) ↔
      EndsInUpload first (inputs ++ [input]) ∨
        (EndsActivated first inputs ∧ input.Straggler) := by
  constructor
  · rintro ⟨front, late, whole, ends, stragglers⟩
    rcases List.eq_nil_or_concat late with rfl | ⟨before, last, rfl⟩
    · rw [List.append_nil] at whole
      exact Or.inl (whole ▸ ends)
    · rw [List.concat_eq_append, ← List.append_assoc] at whole
      obtain ⟨rfl, same⟩ := List.append_inj' whole rfl
      obtain rfl := List.singleton_inj.mp same
      refine Or.inr ⟨⟨front, before, rfl, ends, ?_⟩, stragglers input (by simp)⟩
      intro other member
      exact stragglers other (by simp [member])
  · rintro (ends | ⟨⟨front, late, rfl, ends, stragglers⟩, straggler⟩)
    · exact ⟨inputs ++ [input], [], (List.append_nil _).symm, ends, nofun⟩
    · refine ⟨front, late ++ [input], List.append_assoc .., ends, ?_⟩
      intro other member
      rcases List.mem_append.mp member with member | member
      · exact stragglers other member
      · exact List.mem_singleton.mp member ▸ straggler

/-! ## One message -/

theorem handleData_rebooting_iff (manager : OtaManager) (chunkIndex : UInt16)
    (data : Option Bytes) :
    (manager.handleData chunkIndex data).status = .rebooting ↔ manager.status = .rebooting := by
  have outcome := manager.handleData_outcome chunkIndex data
  generalize manager.handleData chunkIndex data = after at outcome ⊢
  have busy (receiving : manager.status = .receiving) {status : OtaStatus}
      (other : status ≠ .rebooting) : status = .rebooting ↔ manager.status = .rebooting := by
    rw [receiving]
    exact ⟨fun same => absurd same other, nofun⟩
  cases outcome with
  | ignored _ => exact Iff.rfl
  | misplaced status _ => exact busy status (show OtaStatus.idle ≠ _ by decide)
  | empty status _ _ => exact busy status (show OtaStatus.idle ≠ _ by decide)
  | refused status _ _ _ => exact busy status (show OtaStatus.idle ≠ _ by decide)
  | @written after status _ _ asked =>
      have counted : after.countChunk.status = .receiving := asked.same.status.trans status
      split
      · rw [(sendReport_same _ none).status, counted]
        exact busy status (by decide)
      · rw [counted]
        exact busy status (by decide)

theorem handleAbort_status (manager : OtaManager) (reason : Option String) :
    (manager.handleAbort reason).status = .idle := by
  rw [handleAbort]
  split
  · assumption
  · rfl

/-- A manager reboots after an activation, and until something else than a straggler
comes. -/
theorem handle_rebooting_iff (manager : OtaManager) (input : OtaInput) :
    (manager.handle input).status = .rebooting ↔
      Activates manager input ∨ (manager.status = .rebooting ∧ input.Straggler) := by
  have never {status : OtaStatus} (other : status ≠ .rebooting) (silent : ¬ Activates manager input)
      (counts : ¬ input.Straggler) : status = .rebooting ↔
        Activates manager input ∨ (manager.status = .rebooting ∧ input.Straggler) :=
    ⟨fun same => absurd same other, fun either => either.elim (absurd · silent)
      (absurd ·.2 counts)⟩
  have begun {announcement : Announcement} (announces : input.announcement = some announcement)
      (counts : ¬ input.Straggler) : (manager.handle input).status = .rebooting ↔
        Activates manager input ∨ (manager.status = .rebooting ∧ input.Straggler) := by
    have silent := @not_activates_begin manager input announcement announces
    rcases manager.handle_begin_cases announces with ⟨_, _, underway⟩ | ⟨_, idle⟩
    · rw [underway.status]
      exact never (by decide) silent counts
    · rw [idle]
      exact never (by decide) silent counts
  have ended (isEnd : input.IsEnd) (straggler : input.Straggler) :
      (manager.handle input).status = .rebooting ↔
        Activates manager input ∨ (manager.status = .rebooting ∧ input.Straggler) := by
    rw [and_iff_left straggler]
    rcases @end_effect manager input isEnd with ⟨status, handled⟩ | ⟨status, _, silent, idle⟩ |
      ⟨status, _, activates, rebooting⟩
    · rw [handled, or_iff_right fun activates => status ((activates_end_iff isEnd).mp activates).1]
      exact Iff.rfl
    · rw [idle, or_iff_right silent, status]
      exact ⟨nofun, nofun⟩
    · exact ⟨fun _ => Or.inl activates, fun _ => rebooting⟩
  cases input with
  | beginMessage _ => exact begun rfl id
  | beginValues _ _ _ => exact begun rfl id
  | dataMessage message =>
      have silent : ¬ Activates manager (.dataMessage message) := not_activates_data rfl
      by_cases empty : message.data.getD [] = []
      · rw [show manager.handle (.dataMessage message) = _ from
          handleDataMessage_of_empty _ empty]
        exact never (show OtaStatus.idle ≠ _ by decide) silent fun straggler => straggler empty
      · rw [show manager.handle (.dataMessage message) = _ from
          handleDataMessage_of_data _ empty, handleData_rebooting_iff, or_iff_right silent]
        exact (and_iff_left empty).symm
  | dataValues chunkIndex data =>
      have silent : ¬ Activates manager (.dataValues chunkIndex data) := not_activates_data rfl
      rw [show manager.handle (.dataValues chunkIndex data) =
        (manager.record (.input (.dataValues chunkIndex data))).handleData chunkIndex data from rfl,
        handleData_rebooting_iff, or_iff_right silent]
      exact (and_iff_left trivial).symm
  | endMessage _ => exact ended trivial trivial
  | endValues => exact ended trivial trivial
  | abortMessage message =>
      rw [show (manager.handle (.abortMessage message)).status = .idle from
        handleAbort_status _ message.reason]
      exact never (by decide) (not_activates_abort rfl) id
  | abortValues reason =>
      rw [show (manager.handle (.abortValues reason)).status = .idle from
        handleAbort_status _ reason]
      exact never (by decide) (not_activates_abort rfl) id

/-! ## Runs -/

theorem run_rebooting_iff {first : OtaManager} (initially : first.status = .idle)
    (inputs : List OtaInput) :
    (first.run inputs).status = .rebooting ↔ EndsActivated first inputs := by
  induction inputs using List.reverseRecOn with
  | nil =>
      refine ⟨fun rebooting => absurd (initially.symm.trans rebooting) (by decide), ?_⟩
      rintro ⟨front, late, whole, ⟨earlier, _, _, _, _, rfl, ⟨_, _, _, rfl, _⟩, _⟩, _⟩
      simp at whole
  | append_singleton inputs input ih =>
      have idle : first.status ≠ .receiving := by
        rw [initially]
        decide
      rw [run_snoc, handle_rebooting_iff, ih, endsActivated_snoc]
      refine or_congr_left ⟨endsInUpload_of_activates idle, activates_of_endsInUpload⟩

theorem run_receiving_iff {first : OtaManager} (initially : first.status = .idle)
    (inputs : List OtaInput) :
    (first.run inputs).status = .receiving ↔ EndsInOpenUpload first inputs := by
  constructor
  · intro receiving
    obtain ⟨session, earlier, opening, data, whole, opens, carry, filled, allows, underway⟩ :=
      opened_of_receiving (by rw [initially]; decide) inputs receiving
    exact ⟨earlier, opening, data, session.announcement, session.chunks, whole, opens, carry,
      filled, allows, underway.accepted⟩
  · rintro ⟨earlier, opening, data, announcement, chunks, rfl, opens, carry, filled, allows,
      accepted⟩
    rcases (first.run earlier).handle_begin_cases opens with ⟨_, _, begun⟩ | ⟨refused, _⟩
    · have opened : first.run (earlier ++ opening :: data) =
          ((first.run earlier).handle opening).run data := by
        simp [run]
      rw [opened]
      exact (begun.run chunks filled accepted carry).status
    · exact absurd ⟨allows, accepted 0 (Nat.succ_pos _)⟩ refused

theorem statusTold_iff {last : Option ProgressReport} (rest : AtRest last) :
    (last.map ProgressReport.status = some .rebooting ↔ statusTold last = .rebooting) ∧
    (last.map ProgressReport.status = some .receiving ↔ statusTold last = .receiving) ∧
    (last.map ProgressReport.status = none ∨ last.map ProgressReport.status = some .error ↔
      statusTold last ≠ .rebooting ∧ statusTold last ≠ .receiving) := by
  cases last with
  | none => simp [statusTold]
  | some report => rcases rest with status | status | status <;> simp [statusTold, status]

/-- **The host is told the truth.**  Between two messages the last report says that the
device reboots exactly when an upload has been activated and only stragglers have come
since, and that it is receiving exactly when an upload is open; there is no report, or it
is an error, exactly when neither is the case. -/
theorem host_is_told (target : Target) (writer : FlashWriter) (inputs : List OtaInput) :
    let first := new target true writer
    let told := (first.run inputs).lastReport.map ProgressReport.status
    (told = some .rebooting ↔ EndsActivated first inputs) ∧
      (told = some .receiving ↔ EndsInOpenUpload first inputs) ∧
      (told = none ∨ told = some .error ↔
        ¬ EndsActivated first inputs ∧ ¬ EndsInOpenUpload first inputs) := by
  intro first told
  have converses := (converses_new target writer).run inputs
  obtain ⟨status, rest, _⟩ := converses.lastReport_pictures
  have rebooting := run_rebooting_iff (show first.status = .idle from rfl) inputs
  have receiving := run_receiving_iff (show first.status = .idle from rfl) inputs
  rw [← rebooting, ← receiving, status]
  exact statusTold_iff rest

end OtaManager

end Libcomm
