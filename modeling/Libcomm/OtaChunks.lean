import Libcomm.OtaProtocol

/-!
# Which chunks are written

`handleData` compares the index of a chunk with a 16-bit counter and nothing
else.  The writes of a session stay inside the announced image exactly in the
runs without an overrun, a chunk that is accepted when all announced chunks have
already been received.
-/

set_option autoImplicit false

namespace Libcomm

open LabelledRun

/-! ## The log of a session -/

/-- What a trace says about the latest session: the number of chunks that its
begin announced and the indices that were written. -/
structure FlashLog where
  announced : UInt16
  totalChunks : UInt16
  written : List UInt16

def FlashLog.next (log : FlashLog) : Event → FlashLog
  | .input input =>
      match input.announcement with
      | some announcement => { log with announced := announcement.totalChunks }
      | none => log
  | .call (.begin _ _) => { log with totalChunks := log.announced, written := [] }
  | .call (.writeChunk index _ _) => { log with written := log.written ++ [index] }
  | _ => log

def flashLog (trace : List Event) : FlashLog := trace.foldl FlashLog.next ⟨0, 0, []⟩

theorem flashLog_snoc (trace : List Event) (event : Event) :
    flashLog (trace ++ [event]) = (flashLog trace).next event := by
  simp [flashLog]

/-- No write beyond the announced chunks, none twice, and all of them when the
writer is told to finish. -/
def WritesInBounds (trace : List Event) : Prop :=
  (∀ before index data answer after,
    trace = before ++ .call (.writeChunk index data answer) :: after →
      index < (flashLog before).totalChunks ∧ index ∉ (flashLog before).written) ∧
  ∀ before answer after, trace = before ++ .call (.finish answer) :: after →
    (flashLog before).written =
      (List.range (flashLog before).totalChunks.toNat).map UInt16.ofNat

structure LogMatches (state : SessionState) (log : FlashLog) : Prop where
  announced : ∀ announcement, state.handling = some announcement →
    log.announced = announcement.totalChunks
  session : ∀ session, state.phase = .receiving session →
    log.totalChunks = session.announcement.totalChunks ∧
      log.written = (List.range session.chunks.length).map UInt16.ofNat

theorem LogMatches.extended {room : Session → Prop} {state next : SessionState} {event : Event}
    {log : FlashLog} (before : LogMatches state log) (step : SessionStep room state event next) :
    LogMatches next (log.next event) := by
  obtain ⟨announced, session⟩ := before
  cases step with
  | @input phase handling input settled =>
      cases announces : input.announcement with
      | none => exact ⟨by simp, by simpa [FlashLog.next, announces] using session⟩
      | some announcement =>
          exact ⟨by simp [FlashLog.next, announces],
            by simpa [FlashLog.next, announces] using session⟩
  | report _ _ => exact ⟨announced, session⟩
  | maxFirmwareSize _ => exact ⟨announced, session⟩
  | begin answer =>
      refine ⟨announced, ?_⟩
      cases answer with
      | false => simp
      | true =>
          rintro _ ⟨⟩
          exact ⟨announced _ rfl, rfl⟩
  | @writeChunk current handling data answer _ _ =>
      refine ⟨announced, ?_⟩
      cases answer with
      | false => simp
      | true =>
          rintro _ ⟨⟩
          obtain ⟨total, written⟩ := session current rfl
          refine ⟨total, ?_⟩
          simp [FlashLog.next, written, Session.write, Session.nextIndex, List.range_succ]
  | finish answer _ => exact ⟨announced, by cases answer <;> simp⟩
  | verify answer => exact ⟨announced, by cases answer <;> simp⟩
  | activate answer => exact ⟨announced, by cases answer <;> simp⟩
  | abort => exact ⟨announced, by simp⟩

theorem logMatches_of_run {room : Session → Prop} {trace : List Event} {state : SessionState}
    (run : SessionRun room trace state) : LogMatches state (flashLog trace) := by
  refine run.history (fun state trace => LogMatches state (flashLog trace)) ?_ ?_
  · exact ⟨by simp, by simp⟩
  · intro state event next trace before step
    rw [flashLog_snoc]
    exact before.extended step

/-! ## Sessions with room for the announced chunks only -/

def announcedRoom (session : Session) : Prop :=
  session.chunks.length < session.announcement.totalChunks.toNat

/-- Under the limit no session grows beyond its announcement. -/
theorem chunks_le_of_run {trace : List Event} {state : SessionState} {session : Session}
    (run : SessionRun announcedRoom trace state) (receiving : state.phase = .receiving session) :
    session.chunks.length ≤ session.announcement.totalChunks.toNat := by
  refine run.history (fun state _ => ∀ session, state.phase = .receiving session →
    session.chunks.length ≤ session.announcement.totalChunks.toNat) (by simp) ?_ session receiving
  intro state event next _ before step
  cases step with
  | input _ _ => exact before
  | report _ _ => exact before
  | maxFirmwareSize _ => exact before
  | begin answer =>
      cases answer with
      | false => simp
      | true =>
          rintro _ ⟨⟩
          exact Nat.zero_le _
  | @writeChunk current handling data answer _ fits =>
      cases answer with
      | false => simp
      | true =>
          rintro _ ⟨⟩
          rw [Session.write, List.length_append]
          exact fits
  | finish answer _ => cases answer <;> simp
  | verify answer => cases answer <;> simp
  | activate answer => cases answer <;> simp
  | abort => simp

theorem nextIndex_toNat {session : Session}
    (fits : session.chunks.length ≤ session.announcement.totalChunks.toNat) :
    session.nextIndex.toNat = session.chunks.length := by
  have bound := session.announcement.totalChunks.toNat_lt
  rw [Session.nextIndex, UInt16.toNat_ofNat']
  exact Nat.mod_eq_of_lt (by omega)

theorem writesInBounds_of_run {trace : List Event} {state : SessionState}
    (run : SessionRun announcedRoom trace state) : WritesInBounds trace := by
  constructor
  · intro before index data answer after whole
    rw [whole] at run
    obtain ⟨middle, next, reached, step, _⟩ := run.split
    cases step with
    | @writeChunk session _ _ _ _ fits =>
        obtain ⟨total, written⟩ := (logMatches_of_run reached).session session rfl
        have exact := nextIndex_toNat (Nat.le_of_lt fits)
        rw [total, written]
        refine ⟨?_, ?_⟩
        · rw [UInt16.lt_iff_toNat_lt, exact]
          exact fits
        · intro member
          obtain ⟨earlier, inside, same⟩ := List.mem_map.mp member
          have bound := session.announcement.totalChunks.toNat_lt
          have values := congrArg UInt16.toNat same
          rw [exact, UInt16.toNat_ofNat'] at values
          rw [List.mem_range] at inside
          simp only [announcedRoom] at fits
          omega
  · intro before answer after whole
    rw [whole] at run
    obtain ⟨middle, next, reached, step, _⟩ := run.split
    cases step with
    | @finish session _ _ complete =>
        obtain ⟨total, written⟩ := (logMatches_of_run reached).session session rfl
        rw [total, written, ← complete, nextIndex_toNat (chunks_le_of_run reached rfl)]

/-! ## Overruns -/

namespace OtaManager

/-- A further chunk is accepted after the announced ones. -/
def Overrun (manager : OtaManager) (input : OtaInput) : Prop :=
  Writes manager input ∧ manager.receivedChunks = manager.totalChunks

theorem handleData_writes {manager : OtaManager} {data : Option Bytes}
    (status : manager.status = .receiving) (nonEmpty : data.getD [] ≠ []) :
    ∃ answer rest, (manager.handleData manager.receivedChunks data).trace =
      manager.trace ++
        .call (.writeChunk manager.receivedChunks (data.getD []) answer) :: rest := by
  have outcome := manager.handleData_outcome manager.receivedChunks data
  generalize manager.handleData _ _ = after at outcome ⊢
  cases outcome with
  | ignored other => exact absurd status other
  | misplaced _ index => exact absurd rfl index
  | empty _ _ nothing => exact absurd nothing nonEmpty
  | @refused after _ _ _ asked =>
      refine ⟨false, .call .abort :: after.reportEvents .error (some "Flash write failed"), ?_⟩
      rw [abandon_eq, asked.trace_eq, List.append_assoc]
      rfl
  | @written after _ _ _ asked =>
      split
      · refine ⟨true, after.countChunk.reportEvents after.status none, ?_⟩
        rw [sendReport_eq, show after.countChunk.trace = after.trace from rfl, asked.trace_eq,
          List.append_assoc]
        rfl
      · exact ⟨true, [], asked.trace_eq⟩

theorem handle_writes {manager : OtaManager} {input : OtaInput} (writes : Writes manager input) :
    ∃ data answer rest, (manager.handle input).trace =
      (manager.trace ++ [.input input]) ++
        .call (.writeChunk manager.receivedChunks data answer) :: rest := by
  obtain ⟨status, chunk, nonEmpty, carries⟩ := writes
  have entered : (manager.record (.input input)).status = .receiving := status
  obtain ⟨data, rfl, handled⟩ := manager.handle_chunk carries nonEmpty
  obtain ⟨answer, rest, trace⟩ := handleData_writes entered nonEmpty
  refine ⟨data.getD [], answer, rest, ?_⟩
  rw [handled]
  exact trace

/-! ## The counter -/

def Counted (manager : OtaManager) : Prop := manager.receivedChunks ≤ manager.totalChunks

namespace Counted
variable {manager : OtaManager}

theorem of_same {after : OtaManager} (counted : manager.Counted)
    (same : manager.SameFields after) : after.Counted := by
  rw [Counted, same.receivedChunks, same.totalChunks]
  exact counted

theorem transitionTo (counted : manager.Counted) (newStatus : OtaStatus)
    (errorMessage : Option String) : (manager.transitionTo newStatus errorMessage).Counted :=
  @of_same { manager with status := newStatus } _ counted (transitionTo_same _ _ _)

theorem failIdle (counted : manager.Counted) (errorMessage : String) :
    (manager.failIdle errorMessage).Counted :=
  counted.transitionTo .error (some errorMessage)

theorem abandon (counted : manager.Counted) (errorMessage : String) :
    (manager.abandon errorMessage).Counted :=
  @failIdle (manager.record (.call .abort)) counted errorMessage

theorem asked {call : Bool → WriterCall} {answer : Bool} {after : OtaManager}
    (counted : manager.Counted) (asked : Asked manager call answer after) : after.Counted :=
  counted.of_same asked.same

theorem ready (counted : manager.Counted) : manager.ready.Counted := by
  unfold OtaManager.ready
  split
  · exact UInt16.le_refl 0
  · exact counted

theorem handleBegin (counted : manager.Counted) (firmwareSize firmwareCrc32 : UInt32)
    (totalChunks : UInt16) :
    (manager.handleBegin firmwareSize firmwareCrc32 totalChunks).Counted := by
  have queried : manager.ready.maxFirmwareSize.2.Counted := counted.ready
  have announced :
      (manager.ready.maxFirmwareSize.2.announce firmwareCrc32 totalChunks).Counted :=
    UInt16.le_iff_toNat_le.mpr (Nat.zero_le _)
  have preparing := announced.transitionTo .preparing none
  have outcome := manager.handleBegin_outcome firmwareSize firmwareCrc32 totalChunks
  generalize manager.handleBegin _ _ _ = after at outcome ⊢
  cases outcome with
  | unfit _ => exact queried.failIdle _
  | refused _ asked => exact (preparing.asked asked).abandon _
  | begun _ asked => exact (preparing.asked asked).transitionTo .receiving none

theorem countChunk (counted : manager.Counted)
    (more : manager.receivedChunks ≠ manager.totalChunks) : manager.countChunk.Counted := by
  have le := UInt16.le_iff_toNat_le.mp counted
  have ne : manager.receivedChunks.toNat ≠ manager.totalChunks.toNat :=
    fun same => more (UInt16.toNat_inj.mp same)
  have bound := manager.totalChunks.toNat_lt
  simp only [Counted, OtaManager.countChunk, UInt16.le_iff_toNat_le, UInt16.toNat_add,
    UInt16.reduceToNat]
  omega

theorem handleData (counted : manager.Counted) (chunkIndex : UInt16) (data : Option Bytes)
    (inside : manager.status = .receiving → chunkIndex = manager.receivedChunks →
      data.getD [] ≠ [] → manager.receivedChunks ≠ manager.totalChunks) :
    (manager.handleData chunkIndex data).Counted := by
  have outcome := manager.handleData_outcome chunkIndex data
  generalize manager.handleData _ _ = after at outcome ⊢
  cases outcome with
  | ignored _ => exact counted
  | misplaced _ _ => exact counted.abandon _
  | empty _ _ _ => exact counted.abandon _
  | refused _ _ _ asked => exact (counted.asked asked).abandon _
  | @written after status index nonEmpty asked =>
      have more := inside status index nonEmpty
      rw [← asked.same.receivedChunks, ← asked.same.totalChunks] at more
      have counts := (counted.asked asked).countChunk more
      split
      · exact counts.of_same (sendReport_same _ none)
      · exact counts

theorem handleEnd (counted : manager.Counted) : manager.handleEnd.Counted := by
  have outcome := manager.handleEnd_outcome
  generalize manager.handleEnd = after at outcome ⊢
  cases outcome with
  | ignored _ => exact counted
  | miscounted _ _ => exact counted.abandon _
  | unfinished _ _ finish => exact (counted.asked finish).abandon _
  | unverified _ _ finish verify =>
      exact (((counted.asked finish).transitionTo _ _).asked verify).abandon _
  | inactive _ _ finish verify activate =>
      have verified := ((counted.asked finish).transitionTo .verifying none).asked verify
      have rebooting := (verified.transitionTo .applying none).transitionTo .rebooting none
      exact (rebooting.asked activate).abandon _
  | activated _ _ finish verify activate =>
      have verified := ((counted.asked finish).transitionTo .verifying none).asked verify
      have rebooting := (verified.transitionTo .applying none).transitionTo .rebooting none
      exact rebooting.asked activate

theorem handleAbort (counted : manager.Counted) (reason : Option String) :
    (manager.handleAbort reason).Counted := by
  unfold OtaManager.handleAbort
  split
  · exact counted
  · exact counted.abandon _

theorem handle (counted : manager.Counted) (input : OtaInput)
    (inside : ¬ Overrun manager input) : (manager.handle input).Counted := by
  have entered : (manager.record (.input input)).Counted := counted
  have more (index : UInt16) (data : Bytes) (chunk : input.chunk = some (index, data))
      (status : manager.status = .receiving) (expected : index = manager.receivedChunks)
      (nonEmpty : data ≠ []) : manager.receivedChunks ≠ manager.totalChunks :=
    fun full => inside ⟨⟨status, data, nonEmpty, expected ▸ chunk⟩, full⟩
  cases input with
  | beginMessage message => exact entered.handleBegin _ _ _
  | beginValues _ _ _ => exact entered.handleBegin _ _ _
  | dataMessage message =>
      rw [OtaManager.handle, dispatch, handleDataMessage]
      split
      · exact entered.abandon _
      · exact entered.handleData _ _ (more _ _ rfl)
  | dataValues _ _ => exact entered.handleData _ _ (more _ _ rfl)
  | endMessage _ => exact entered.handleEnd
  | endValues => exact entered.handleEnd
  | abortMessage message => exact entered.handleAbort _
  | abortValues reason => exact entered.handleAbort _

end Counted

theorem run_counted (target : Target) (sendProgress : Bool) (writer : FlashWriter)
    (inputs : List OtaInput)
    (inside : ∀ front input back, inputs = front ++ input :: back →
      ¬ Overrun ((new target sendProgress writer).run front) input) :
    ((new target sendProgress writer).run inputs).Counted := by
  induction inputs using List.reverseRecOn with
  | nil => exact UInt16.le_refl 0
  | append_singleton inputs input ih =>
      rw [run_snoc]
      refine (ih ?_).handle input (inside inputs input [] rfl)
      intro front other back whole
      exact inside front other (back ++ [input])
        (by rw [whole, List.append_assoc, List.cons_append])

/-! ## Exactly the runs without an overrun -/

theorem run_inBounds (target : Target) (sendProgress : Bool) (writer : FlashWriter)
    (inputs : List OtaInput)
    (inside : ∀ front input back, inputs = front ++ input :: back →
      ¬ Overrun ((new target sendProgress writer).run front) input) :
    WritesInBounds ((new target sendProgress writer).run inputs).trace := by
  obtain ⟨state, run, _⟩ := run_settles announcedRoom target sendProgress writer inputs (by
    intro front input back whole state run mirrors session receiving writes
    have le := chunks_le_of_run run receiving
    have index := nextIndex_toNat le
    have notFull := inside front input back whole
    rw [receiving] at mirrors
    cases mirrors with
    | receiving status _ total received =>
        have more : session.nextIndex.toNat ≠ session.announcement.totalChunks.toNat := by
          intro same
          apply notFull
          exact ⟨writes, by rw [received, total, UInt16.toNat_inj.mp same]⟩
        simp only [announcedRoom]
        omega)
  exact writesInBounds_of_run run

theorem not_inBounds_of_overrun {room : Session → Prop} {manager : OtaManager}
    {input : OtaInput} (settles : manager.Settles room) (overrun : Overrun manager input) :
    ¬ WritesInBounds (manager.handle input).trace := by
  obtain ⟨state, run, mirrors⟩ := settles
  obtain ⟨writes, full⟩ := overrun
  obtain ⟨session, receiving, _, total, _⟩ := mirrors.receiving_of_status writes.1
  obtain ⟨data, answer, rest, trace⟩ := handle_writes writes
  rintro ⟨inBounds, _⟩
  have announced := ((logMatches_of_run run).session session receiving).1
  have entered : (flashLog (manager.trace ++ [.input input])).totalChunks =
      (flashLog manager.trace).totalChunks := by
    rw [flashLog_snoc, FlashLog.next]
    split <;> rfl
  have below := (inBounds _ _ _ _ _ trace).1
  rw [entered, announced, ← total, full] at below
  exact absurd below (UInt16.lt_irrefl _)

/-- **Exactly when no chunk is written outside the announced image**: in every
state that a run reaches the counter is within the announced number and the
writes so far are in bounds, if and only if no chunk overruns the image. -/
theorem writes_in_bounds_iff (target : Target) (sendProgress : Bool) (writer : FlashWriter)
    (inputs : List OtaInput) :
    (∀ front back, inputs = front ++ back →
      ((new target sendProgress writer).run front).receivedChunks ≤
          ((new target sendProgress writer).run front).totalChunks ∧
        WritesInBounds ((new target sendProgress writer).run front).trace) ↔
    ∀ front input back, inputs = front ++ input :: back →
      ¬ Overrun ((new target sendProgress writer).run front) input := by
  constructor
  · intro holds front input back whole overrun
    have settles := run_settles_unlimited target sendProgress writer front
    apply not_inBounds_of_overrun settles overrun
    rw [← run_snoc]
    exact (holds (front ++ [input]) back (by rw [whole, List.append_assoc]; rfl)).2
  · intro inside front back whole
    have insideFront (earlier : List OtaInput) (input : OtaInput) (later : List OtaInput)
        (split : front = earlier ++ input :: later) :
        ¬ Overrun ((new target sendProgress writer).run earlier) input :=
      inside earlier input (later ++ back) (by rw [whole, split, List.append_assoc]; rfl)
    exact ⟨run_counted target sendProgress writer front insideFront,
      run_inBounds target sendProgress writer front insideFront⟩

def overlongUpload : List OtaInput :=
  [.beginValues 1 0xD202EF8D 1, .dataValues 0 (some [0]), .dataValues 1 (some [0])]

theorem second_chunk_is_written :
    ¬ WritesInBounds ((new .stm32 false willingWriter).run overlongUpload).trace := by
  rintro ⟨inBounds, _⟩
  have below := (inBounds
    [.input (.beginValues 1 0xD202EF8D 1), .call (.maxFirmwareSize 1024), .call (.begin 1 true),
      .input (.dataValues 0 (some [0])), .call (.writeChunk 0 [0] true),
      .input (.dataValues 1 (some [0]))] 1 [0] true [] rfl).1
  exact absurd below (by decide)

end OtaManager

end Libcomm
