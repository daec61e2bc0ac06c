import Libcomm.OtaSession

/-!
# What the writer is put through

The phase that a run of the session protocol has reached tells what the trace
holds: which handler was entered last, which calls the open session has made,
that no begin is left unsettled.  From there the properties of every run of the
manager are read off its trace alone.
-/

set_option autoImplicit false

namespace Libcomm

open LabelledRun

/-! ## Reading a trace -/

def Event.call? : Event → Option WriterCall
  | .call made => some made
  | .input _ => none
  | .report _ => none

def callsOf (trace : List Event) : List WriterCall := trace.filterMap Event.call?

@[simp] theorem callsOf_append (front back : List Event) :
    callsOf (front ++ back) = callsOf front ++ callsOf back :=
  List.filterMap_append

theorem mem_callsOf (call : WriterCall) (trace : List Event) :
    call ∈ callsOf trace ↔ Event.call call ∈ trace := by
  rw [callsOf, List.mem_filterMap]
  constructor
  · rintro ⟨event, member, isCall⟩
    cases event with
    | call other =>
        cases Option.some.inj isCall
        exact member
    | input _ => cases isCall
    | report _ => cases isCall
  · exact fun member => ⟨.call call, member, rfl⟩

def Event.report? : Event → Option ProgressReport
  | .report made => some made
  | .input _ => none
  | .call _ => none

def reportsOf (trace : List Event) : List ProgressReport := trace.filterMap Event.report?

@[simp] theorem reportsOf_append (front back : List Event) :
    reportsOf (front ++ back) = reportsOf front ++ reportsOf back :=
  List.filterMap_append

/-- Accepted writes of the given chunks, numbered from zero modulo 2^16. -/
def chunkWrites (chunks : List Bytes) : List WriterCall :=
  chunks.mapIdx fun index data => .writeChunk (UInt16.ofNat index) data true

theorem chunkWrites_snoc (chunks : List Bytes) (data : Bytes) :
    chunkWrites (chunks ++ [data]) =
      chunkWrites chunks ++ [.writeChunk (UInt16.ofNat chunks.length) data true] :=
  List.mapIdx_concat

/-- The handler that was entered last announces the image. -/
def Handling (announcement : Announcement) (trace : List Event) : Prop :=
  ∃ before input opening, trace = before ++ .input input :: opening ∧
    input.announcement = some announcement ∧ ∀ other, .input other ∉ opening

/-- The handler of the announcement has begun a session, which has made the
given calls. -/
def InSession (announcement : Announcement) (trace : List Event) (calls : List WriterCall) :
    Prop :=
  ∃ opening session,
    trace = opening ++ .call (.begin announcement.firmwareSize true) :: session ∧
    Handling announcement opening ∧ callsOf session = calls

def BeginsSettled (trace : List Event) : Prop :=
  ∀ before firmwareSize answer after,
    trace = before ++ .call (.begin firmwareSize answer) :: after →
      .abort ∈ callsOf after ∨ .activate true ∈ callsOf after

def Activated (trace : List Event) : Prop :=
  ∃ before after, trace = before ++ .call (.activate true) :: after ∧ callsOf after = []

section Extending
variable {announcement : Announcement} {trace : List Event} {event : Event}

theorem Handling.snoc (handling : Handling announcement trace)
    (same : ∀ input, event ≠ .input input) : Handling announcement (trace ++ [event]) := by
  obtain ⟨before, input, opening, rfl, announces, none⟩ := handling
  refine ⟨before, input, opening ++ [event], by simp, announces, ?_⟩
  intro other member
  rcases List.mem_append.mp member with member | member
  · exact none other member
  · exact same other (List.mem_singleton.mp member).symm

theorem InSession.snoc {calls : List WriterCall} (session : InSession announcement trace calls)
    (event : Event) : InSession announcement (trace ++ [event]) (calls ++ callsOf [event]) := by
  obtain ⟨opening, session, rfl, handling, made⟩ := session
  exact ⟨opening, session ++ [event], by simp, handling, by rw [callsOf_append, made]⟩

theorem InSession.snoc_quiet {calls : List WriterCall}
    (session : InSession announcement trace calls) (quiet : callsOf [event] = []) :
    InSession announcement (trace ++ [event]) calls := by
  have extended := session.snoc event
  rwa [quiet, List.append_nil] at extended

theorem BeginsSettled.snoc (settled : BeginsSettled trace)
    (other : ∀ firmwareSize answer, event ≠ .call (.begin firmwareSize answer)) :
    BeginsSettled (trace ++ [event]) := by
  intro before firmwareSize answer after whole
  rcases snoc_eq_append_cons whole with ⟨_, _, isBegin⟩ | ⟨inner, rfl, parts⟩
  · exact absurd isBegin (other _ _)
  · rw [callsOf_append]
    exact (settled before firmwareSize answer inner parts).imp
      (List.mem_append_left _) (List.mem_append_left _)

theorem BeginsSettled.of_call {call : WriterCall} (trace : List Event)
    (settles : call = .abort ∨ call = .activate true) : BeginsSettled (trace ++ [.call call]) := by
  intro before firmwareSize answer after whole
  rcases snoc_eq_append_cons whole with ⟨_, _, isBegin⟩ | ⟨inner, rfl, _⟩
  · cases isBegin
    rcases settles with impossible | impossible <;> cases impossible
  · have last : call ∈ callsOf (inner ++ [.call call]) := by
      rw [callsOf_append]
      exact List.mem_append_right _ List.mem_cons_self
    rcases settles with rfl | rfl
    · exact Or.inl last
    · exact Or.inr last

theorem Activated.snoc (activated : Activated trace) (quiet : callsOf [event] = []) :
    Activated (trace ++ [event]) := by
  obtain ⟨before, after, rfl, none⟩ := activated
  exact ⟨before, after ++ [event], by simp, by rw [callsOf_append, none, quiet]; rfl⟩

end Extending

/-! ## The history of a phase -/

/-- As many chunks as announced, modulo 2^16. -/
def Session.Complete (session : Session) : Prop :=
  session.nextIndex = session.announcement.totalChunks

def Session.Filled (session : Session) : Prop := ∀ data ∈ session.chunks, data ≠ []

def PhaseHistory : Phase → List Event → Prop
  | .closed, trace => BeginsSettled trace
  | .failing, _ => True
  | .receiving session, trace =>
      session.Filled ∧ InSession session.announcement trace (chunkWrites session.chunks)
  | .finished session, trace =>
      session.Filled ∧ session.Complete ∧
        InSession session.announcement trace (chunkWrites session.chunks ++ [.finish true])
  | .verified session, trace =>
      session.Filled ∧ session.Complete ∧
        InSession session.announcement trace (chunkWrites session.chunks ++
          [.finish true, .verify session.announcement.firmwareCrc32 true])
  | .rebooting, trace => BeginsSettled trace ∧ Activated trace

structure History (state : SessionState) (trace : List Event) : Prop where
  handling : ∀ announcement, state.handling = some announcement → Handling announcement trace
  phase : PhaseHistory state.phase trace

theorem PhaseHistory.snoc_quiet {phase : Phase} {trace : List Event} {event : Event}
    (history : PhaseHistory phase trace) (quiet : callsOf [event] = []) :
    PhaseHistory phase (trace ++ [event]) := by
  have noBegin (firmwareSize : UInt32) (answer : Bool) :
      event ≠ .call (.begin firmwareSize answer) := by
    rintro rfl
    simp [callsOf, Event.call?] at quiet
  cases phase with
  | closed => exact history.snoc noBegin
  | failing => trivial
  | receiving session =>
      obtain ⟨filled, made⟩ := history
      exact ⟨filled, made.snoc_quiet quiet⟩
  | finished session =>
      obtain ⟨filled, complete, made⟩ := history
      exact ⟨filled, complete, made.snoc_quiet quiet⟩
  | verified session =>
      obtain ⟨filled, complete, made⟩ := history
      exact ⟨filled, complete, made.snoc_quiet quiet⟩
  | rebooting => exact ⟨history.1.snoc noBegin, history.2.snoc quiet⟩

theorem History.of_call {state next : SessionState} {trace : List Event} {call : WriterCall}
    (history : History state trace) (same : next.handling = state.handling)
    (phase : PhaseHistory next.phase (trace ++ [.call call])) :
    History next (trace ++ [.call call]) :=
  ⟨fun _ handled => (history.handling _ (same ▸ handled)).snoc (by simp), phase⟩

/-- One step of the protocol adds to the history what its phase says. -/
theorem History.extended {room : Session → Prop} {state next : SessionState} {event : Event}
    {trace : List Event} (history : History state trace)
    (step : SessionStep room state event next) : History next (trace ++ [event]) := by
  cases step with
  | @input phase handling input settled =>
      refine ⟨?_, history.phase.snoc_quiet rfl⟩
      intro announcement announces
      exact ⟨trace, input, [], rfl, announces, by simp⟩
  | report report responding =>
      exact ⟨fun _ handled => (history.handling _ handled).snoc (by simp),
        history.phase.snoc_quiet rfl⟩
  | maxFirmwareSize answer =>
      exact history.of_call rfl (BeginsSettled.snoc history.phase (by simp))
  | @begin announcement answer =>
      have handling := history.handling announcement rfl
      refine history.of_call rfl ?_
      cases answer with
      | false => trivial
      | true => exact ⟨by simp [Session.Filled], trace, [], rfl, handling, rfl⟩
  | @writeChunk session handling data answer nonEmpty fits =>
      refine history.of_call rfl ?_
      cases answer with
      | false => trivial
      | true =>
          obtain ⟨filled, made⟩ := history.phase
          refine ⟨?_, ?_⟩
          · intro other member
            rcases List.mem_append.mp member with member | member
            · exact filled other member
            · exact List.mem_singleton.mp member ▸ nonEmpty
          · rw [Session.write, chunkWrites_snoc]
            exact made.snoc _
  | @finish session handling answer complete =>
      refine history.of_call rfl ?_
      cases answer with
      | false => trivial
      | true =>
          obtain ⟨filled, made⟩ := history.phase
          exact ⟨filled, complete, made.snoc _⟩
  | @verify session handling answer =>
      refine history.of_call rfl ?_
      cases answer with
      | false => trivial
      | true =>
          obtain ⟨filled, complete, made⟩ := history.phase
          have verified := made.snoc (.call (.verify session.announcement.firmwareCrc32 true))
          rw [List.append_assoc] at verified
          exact ⟨filled, complete, verified⟩
  | activate answer =>
      refine history.of_call rfl ?_
      cases answer with
      | false => trivial
      | true => exact ⟨.of_call trace (Or.inr rfl), trace, [], rfl, rfl⟩
  | abort => exact history.of_call rfl (BeginsSettled.of_call trace (Or.inl rfl))

theorem history_of_run {room : Session → Prop} {trace : List Event} {state : SessionState}
    (run : SessionRun room trace state) : History state trace := by
  refine run.history History ?_ fun _ _ _ _ before step => before.extended step
  refine ⟨by simp, ?_⟩
  intro before firmwareSize answer after whole
  simp at whole

/-! ## Following a session -/

/-- Until it is aborted or finished, an open session takes chunks or has failed. -/
theorem phase_of_open {room : Session → Prop} {session : Session}
    {handling : Option Announcement} {trace : List Event} {final : SessionState}
    (run : Run (SessionStep room) ⟨.receiving session, handling⟩ trace final)
    (unaborted : .abort ∉ callsOf trace) (unfinished : ∀ answer, .finish answer ∉ callsOf trace) :
    final.phase = .failing ∨ ∃ later, final.phase = .receiving later := by
  refine run.invariant
    (fun state => state.phase = .failing ∨ ∃ later, state.phase = .receiving later)
    (fun event => event ≠ .call .abort ∧ ∀ answer, event ≠ .call (.finish answer))
    (Or.inr ⟨session, rfl⟩) ?_ ?_
  · rintro ⟨phase, current⟩ event next before ⟨notAbort, notFinish⟩ step
    cases step with
    | input _ settled => exact before
    | report _ _ => exact before
    | maxFirmwareSize _ => simp at before
    | begin _ => simp at before
    | writeChunk answer _ _ =>
        cases answer with
        | false => exact Or.inl rfl
        | true => exact Or.inr ⟨_, rfl⟩
    | finish answer _ => exact absurd rfl (notFinish answer)
    | verify _ => simp at before
    | activate _ => simp at before
    | abort => exact absurd rfl notAbort
  · intro event member
    refine ⟨?_, fun answer => ?_⟩ <;> rintro rfl
    · exact unaborted ((mem_callsOf _ _).mpr member)
    · exact unfinished answer ((mem_callsOf _ _).mpr member)

theorem phase_of_activated {room : Session → Prop} {handling : Option Announcement}
    {trace : List Event} {final : SessionState}
    (run : Run (SessionStep room) ⟨.rebooting, handling⟩ trace final)
    (unaborted : .abort ∉ callsOf trace) : final.phase = .rebooting := by
  refine run.invariant (fun state => state.phase = .rebooting)
    (fun event => event ≠ .call .abort) rfl ?_ ?_
  · rintro ⟨phase, current⟩ event next before notAbort step
    obtain rfl : phase = .rebooting := before
    cases step with
    | input _ _ => rfl
    | report _ _ => rfl
    | abort => exact absurd rfl notAbort
  · rintro event member rfl
    exact unaborted ((mem_callsOf _ _).mpr member)

/-! ## The properties of a run -/

def OnlyWrites (calls : List WriterCall) : Prop :=
  ∀ call ∈ calls, ∃ index data, call = .writeChunk index data true

theorem onlyWrites_chunkWrites (chunks : List Bytes) : OnlyWrites (chunkWrites chunks) := by
  intro call member
  obtain ⟨index, inside, rfl⟩ := List.mem_mapIdx.mp member
  exact ⟨_, _, rfl⟩

/-- The calls of the writer since it accepted a begin. -/
def Since (trace : List Event) (calls : List WriterCall) : Prop :=
  ∃ before firmwareSize session,
    trace = before ++ .call (.begin firmwareSize true) :: session ∧ callsOf session = calls

theorem InSession.since {announcement : Announcement} {trace : List Event}
    {calls : List WriterCall} (made : InSession announcement trace calls) :
    Since trace calls := by
  obtain ⟨opening, session, whole, _, same⟩ := made
  exact ⟨opening, _, session, whole, same⟩

/-- What must have been called before a call: chunks only in an open session,
then finish, verify and activate, each once. -/
def WriterCall.InOrder (before : List Event) : WriterCall → Prop
  | .writeChunk _ _ _ => ∃ writes, OnlyWrites writes ∧ Since before writes
  | .finish _ => ∃ writes, OnlyWrites writes ∧ Since before writes
  | .verify _ _ => ∃ writes, OnlyWrites writes ∧ Since before (writes ++ [.finish true])
  | .activate _ =>
      ∃ writes crc, OnlyWrites writes ∧ Since before (writes ++ [.finish true, .verify crc true])
  | .begin _ _ => BeginsSettled before
  | .maxFirmwareSize _ => True
  | .abort => True

def WriterCall.Refused : WriterCall → Prop
  | .begin _ answer => answer = false
  | .writeChunk _ _ answer => answer = false
  | .finish answer => answer = false
  | .verify _ answer => answer = false
  | .activate answer => answer = false
  | .maxFirmwareSize _ => False
  | .abort => False

/-- An accepted begin that was neither aborted nor finished. -/
def OpenSession (trace : List Event) : Prop :=
  ∃ before firmwareSize session,
    trace = before ++ .call (.begin firmwareSize true) :: session ∧
    .abort ∉ callsOf session ∧ ∀ answer, .finish answer ∉ callsOf session

/-- The last activation succeeded and neither abort nor begin followed. -/
def ActivatedLast (trace : List Event) : Prop :=
  ∃ before after, trace = before ++ .call (.activate true) :: after ∧
    .abort ∉ callsOf after ∧ (∀ firmwareSize answer, .begin firmwareSize answer ∉ callsOf after) ∧
    ∀ answer, .activate answer ∉ callsOf after

theorem inOrder_of_step {room : Session → Prop} {state next : SessionState}
    {trace : List Event} {call : WriterCall} (history : History state trace)
    (step : SessionStep room state (.call call) next) : call.InOrder trace := by
  cases step with
  | maxFirmwareSize _ => trivial
  | begin _ => exact history.phase
  | writeChunk _ _ _ => exact ⟨_, onlyWrites_chunkWrites _, history.phase.2.since⟩
  | finish _ _ => exact ⟨_, onlyWrites_chunkWrites _, history.phase.2.since⟩
  | verify _ => exact ⟨_, onlyWrites_chunkWrites _, history.phase.2.2.since⟩
  | activate _ => exact ⟨_, _, onlyWrites_chunkWrites _, history.phase.2.2.since⟩
  | abort => trivial

theorem failing_of_refused {room : Session → Prop} {state next : SessionState}
    {call : WriterCall} (step : SessionStep room state (.call call) next)
    (refused : call.Refused) : next.phase = .failing := by
  cases step with
  | maxFirmwareSize _ => exact refused.elim
  | begin answer => cases (show answer = false from refused); rfl
  | writeChunk answer _ _ => cases (show answer = false from refused); rfl
  | finish answer _ => cases (show answer = false from refused); rfl
  | verify answer => cases (show answer = false from refused); rfl
  | activate answer => cases (show answer = false from refused); rfl
  | abort => exact refused.elim

theorem abort_of_failing {room : Session → Prop} {state final : SessionState}
    {trace : List Event} (run : Run (SessionStep room) state trace final)
    (failing : state.phase = .failing) (settled : final.phase.Settled) :
    ∃ rest, trace = .call .abort :: rest := by
  cases trace with
  | nil =>
      rw [run.eq_of_nil, failing] at settled
      cases settled
  | cons event rest =>
      obtain ⟨next, step, _⟩ := run.uncons
      obtain ⟨phase, handling⟩ := state
      obtain rfl : phase = .failing := failing
      cases step with
      | input _ settledFirst => cases settledFirst
      | report _ responding => exact absurd rfl responding
      | abort => exact ⟨rest, rfl⟩

theorem status_receiving_iff {room : Session → Prop} {manager : OtaManager}
    (settles : manager.Settles room) :
    manager.status = .receiving ↔ OpenSession manager.trace := by
  obtain ⟨state, run, mirrors⟩ := settles
  constructor
  · intro status
    obtain ⟨session, phase, _⟩ := mirrors.receiving_of_status status
    have history := (history_of_run run).phase
    rw [phase] at history
    obtain ⟨opening, after, whole, _, made⟩ := history.2
    have writes := onlyWrites_chunkWrites session.chunks
    rw [← made] at writes
    refine ⟨opening, _, after, whole, fun member => ?_, fun answer member => ?_⟩
    · obtain ⟨index, data, impossible⟩ := writes _ member
      cases impossible
    · obtain ⟨index, data, impossible⟩ := writes _ member
      cases impossible
  · rintro ⟨before, firmwareSize, session, whole, unaborted, unfinished⟩
    rw [whole] at run
    obtain ⟨middle, next, _, step, after⟩ := run.split
    cases step with
    | begin _ =>
        rcases phase_of_open after unaborted unfinished with failing | ⟨later, receiving⟩
        · have settled := mirrors.settled
          rw [failing] at settled
          cases settled
        · rw [receiving] at mirrors
          cases mirrors with
          | receiving status _ _ _ => exact status

theorem status_rebooting_iff {room : Session → Prop} {manager : OtaManager}
    (settles : manager.Settles room) :
    manager.status = .rebooting ↔ ActivatedLast manager.trace := by
  obtain ⟨⟨phase, handling⟩, run, mirrors⟩ := settles
  constructor
  · intro status
    have history := (history_of_run run).phase
    cases mirrors with
    | closed idle => cases idle.symm.trans status
    | receiving other _ _ _ => cases other.symm.trans status
    | rebooting _ =>
        obtain ⟨before, after, whole, none⟩ := history.2
        exact ⟨before, after, whole, by simp [none]⟩
  · rintro ⟨before, after, whole, unaborted, _, _⟩
    rw [whole] at run
    obtain ⟨middle, next, _, step, later⟩ := run.split
    cases step with
    | activate _ =>
        obtain rfl : phase = .rebooting := phase_of_activated later unaborted
        cases mirrors with
        | rebooting status => exact status

namespace OtaManager

/-- **The writer is driven through its sessions and the status mirrors them.**
In every run each call comes in order, a refused call is followed at once by an
abort, and after each handler the status is `receiving` while a session is open,
`rebooting` after an activation, and `idle` otherwise. -/
theorem run_keeps_session_protocol (target : Target) (sendProgress : Bool)
    (writer : FlashWriter) (inputs : List OtaInput) :
    let after := (new target sendProgress writer).run inputs
    (∀ before call rest, after.trace = before ++ .call call :: rest →
      call.InOrder before ∧ (call.Refused → ∃ later, rest = .call .abort :: later)) ∧
    (after.status = .receiving ↔ OpenSession after.trace) ∧
    (after.status = .rebooting ↔ ActivatedLast after.trace) ∧
    (after.status = .idle ↔ ¬ OpenSession after.trace ∧ ¬ ActivatedLast after.trace) := by
  intro after
  have settles := run_settles_unlimited target sendProgress writer inputs
  have receiving := status_receiving_iff settles
  have rebooting := status_rebooting_iff settles
  obtain ⟨⟨phase, handling⟩, run, mirrors⟩ := settles
  refine ⟨?_, receiving, rebooting, ?_⟩
  · intro before call rest whole
    rw [whole] at run
    obtain ⟨middle, next, reached, step, later⟩ := run.split
    refine ⟨inOrder_of_step (history_of_run reached) step, fun refused => ?_⟩
    exact abort_of_failing later (failing_of_refused step refused) mirrors.settled
  · rw [← receiving, ← rebooting]
    constructor
    · intro idle
      rw [idle]
      decide
    · rintro ⟨notReceiving, notRebooting⟩
      cases mirrors with
      | closed idle => exact idle
      | receiving status _ _ _ => exact absurd status notReceiving
      | rebooting status => exact absurd status notRebooting

/-- **Activation is earned.**  Since the begin of its session the writer has
accepted the announced number of non-empty chunks, numbered from zero, and then
finish and the verification of the announced checksum, and nothing else. -/
theorem activate_is_earned (target : Target) (sendProgress : Bool) (writer : FlashWriter)
    (inputs : List OtaInput) (before after : List Event) (answer : Bool)
    (activation : ((new target sendProgress writer).run inputs).trace =
      before ++ .call (.activate answer) :: after) :
    ∃ announcement chunks,
      InSession announcement before (chunkWrites chunks ++
        [.finish true, .verify announcement.firmwareCrc32 true]) ∧
      (∀ data ∈ chunks, data ≠ []) ∧
      chunks.length % 2 ^ 16 = announcement.totalChunks.toNat := by
  obtain ⟨state, run, _⟩ := run_settles_unlimited target sendProgress writer inputs
  rw [activation] at run
  obtain ⟨middle, next, reached, step, _⟩ := run.split
  cases step with
  | @activate session handling answer =>
      obtain ⟨filled, complete, made⟩ := (history_of_run reached).phase
      refine ⟨session.announcement, session.chunks, made, filled, ?_⟩
      rw [← show session.nextIndex = session.announcement.totalChunks from complete]
      exact UInt16.toNat_ofNat'.symm

def willingWriter : FlashWriter := ⟨fun _ => 1024, fun _ => true⟩

def smallUpload : List OtaInput :=
  [.beginValues 1 0xD202EF8D 1, .dataValues 0 (some [0]), .endValues]

theorem activate_is_earned_small_upload :
    ∃ announcement chunks,
      InSession announcement
        [.input (.beginValues 1 0xD202EF8D 1), .call (.maxFirmwareSize 1024), .call (.begin 1 true),
          .input (.dataValues 0 (some [0])), .call (.writeChunk 0 [0] true), .input .endValues,
          .call (.finish true), .call (.verify 0xD202EF8D true)]
        (chunkWrites chunks ++ [.finish true, .verify announcement.firmwareCrc32 true]) ∧
      (∀ data ∈ chunks, data ≠ []) ∧
      chunks.length % 2 ^ 16 = announcement.totalChunks.toNat :=
  activate_is_earned .stm32 false willingWriter smallUpload _ [] true rfl

end OtaManager

end Libcomm
