import Libcomm.FrameSender
import Libcomm.Library.TicketDispenser
import Mathlib.Data.List.Induction

/-!
# Sequence numbers of concurrent senders

Any number of callers are inside `Send` of one transport.  A step is one of the
two critical sections: `NextSequence`, or `TransmitFrame` for any of the calls
that have their number.  An allocated number is a ticket: it is carried by the
frame of its own call, or lost with a call that is refused in between.
-/

set_option autoImplicit false

namespace Libcomm

open FrameTransport LabelledRun TicketDispenser

/-! ## Interleaved calls -/

/-- A call of `Send` after its allocation, the ticket counting the allocations
before it. -/
structure Allocation where
  ticket : Nat
  sequenceNumber : UInt16
  arguments : SendArguments
  valid : ¬ arguments.Invalid

structure Sender where
  transport : FrameTransport
  buffers : TransmitBuffers
  allocations : Nat
  /-- The calls between their two critical sections. -/
  pending : List Allocation
  /-- The frames handed to the write callback, each with its call. -/
  handed : List (Allocation × Bytes)
  /-- The calls that `TransmitFrame` refused. -/
  refused : List Allocation

inductive SendEvent where
  | begin (arguments : SendArguments)
  | transmit (index : Nat) (writeSucceeded : Bool)
  /-- A transport elsewhere in the program uses the static buffers. -/
  | share (buffers : TransmitBuffers)

/-- Among the calls that have their number, the oldest transmits. -/
def SendEvent.InOrder : SendEvent → Prop
  | .begin _ => True
  | .transmit index _ => index = 0
  | .share _ => True

namespace Sender

def new (writeRegistered : Bool) (buffers : TransmitBuffers) : Sender :=
  ⟨.new writeRegistered, buffers, 0, [], [], []⟩

def step (sender : Sender) : SendEvent → Option Sender
  | .begin arguments =>
      if invalid : arguments.Invalid then some sender
      else
        let (allocatedSequenceNumber, transport) := sender.transport.nextSequence
        some { sender with
          transport := transport
          allocations := sender.allocations + 1
          pending := sender.pending ++
            [⟨sender.allocations, allocatedSequenceNumber, arguments, invalid⟩] }
  | .transmit index writeSucceeded =>
      match sender.pending[index]? with
      | none => none
      | some allocation =>
          let pending := sender.pending.eraseIdx index
          match sender.transport.transmitFrame .data allocation.sequenceNumber
            allocation.arguments writeSucceeded sender.buffers with
          | (_, some frame, buffers) =>
              some { sender with
                buffers := buffers
                pending := pending
                handed := sender.handed ++ [(allocation, frame)] }
          | (_, none, buffers) =>
              some { sender with
                buffers := buffers
                pending := pending
                refused := sender.refused ++ [allocation] }
  | .share buffers => some { sender with buffers := buffers }

def Steps (before : Sender) (event : SendEvent) (after : Sender) : Prop :=
  before.step event = some after

def run (sender : Sender) (events : List SendEvent) : Option Sender :=
  events.foldlM Sender.step sender

theorem steps_of_run {sender final : Sender} {events : List SendEvent}
    (ran : sender.run events = some final) : Run Steps sender events final := by
  induction events using List.reverseRecOn generalizing final with
  | nil =>
      cases ran
      exact .nil
  | append_singleton events event ih =>
      rw [run, List.foldlM_append] at ran
      obtain ⟨middle, before, last⟩ := Option.bind_eq_some_iff.mp ran
      have step : middle.step event = some final := by simpa using last
      exact .snoc (ih before) step

inductive StepOutcome (before : Sender) : SendEvent → Sender → Prop where
  | rejected {arguments : SendArguments} (invalid : arguments.Invalid) :
      StepOutcome before (.begin arguments) before
  | allocated {arguments : SendArguments} (valid : ¬ arguments.Invalid) :
      StepOutcome before (.begin arguments) { before with
        transport := before.transport.nextSequence.2
        allocations := before.allocations + 1
        pending := before.pending ++
          [⟨before.allocations, before.transport.nextSequence.1, arguments, valid⟩] }
  | refused {index : Nat} {writeSucceeded : Bool} {allocation : Allocation}
      (taken : before.pending[index]? = some allocation)
      (reason : before.transport.writeRegistered = false ∨
        kMaxFrameSize < allocation.arguments.payload.length) :
      StepOutcome before (.transmit index writeSucceeded) { before with
        pending := before.pending.eraseIdx index
        refused := before.refused ++ [allocation] }
  | handed {index : Nat} {writeSucceeded : Bool} {allocation : Allocation}
      {buffers : TransmitBuffers} (taken : before.pending[index]? = some allocation) :
      StepOutcome before (.transmit index writeSucceeded) { before with
        buffers := buffers
        pending := before.pending.eraseIdx index
        handed := before.handed ++ [(allocation,
          encodeFrame allocation.sequenceNumber allocation.arguments.payload)] }
  | shared (buffers : TransmitBuffers) :
      StepOutcome before (.share buffers) { before with buffers := buffers }

theorem step_outcome {before after : Sender} {event : SendEvent}
    (stepped : Steps before event after) : StepOutcome before event after := by
  unfold Steps at stepped
  cases event with
  | begin arguments =>
      simp only [step] at stepped
      split at stepped
      · next invalid =>
          cases stepped
          exact .rejected invalid
      · next valid =>
          cases stepped
          exact .allocated valid
  | transmit index writeSucceeded =>
      simp only [step] at stepped
      cases taken : before.pending[index]? with
      | none => simp [taken] at stepped
      | some allocation =>
          simp only [taken] at stepped
          rcases before.transport.transmitFrame_cases allocation.sequenceNumber allocation.valid
              writeSucceeded before.buffers with ⟨reason, result⟩ | ⟨_, later, result⟩
          · simp only [result] at stepped
            cases stepped
            exact .refused taken reason
          · simp only [result] at stepped
            cases stepped
            exact .handed taken
  | share buffers =>
      cases stepped
      exact .shared buffers

/-! ## Numbers are tickets -/

def tickets (sender : Sender) : Dispenser where
  issued := sender.allocations
  held := sender.pending.map Allocation.ticket
  used := sender.handed.map fun sent => sent.1.ticket
  discarded := sender.refused.map Allocation.ticket

theorem step_moves {before after : Sender} {event : SendEvent}
    (stepped : Steps before event after) :
    after.tickets = before.tickets ∨
      ∃ move, Moves before.tickets move after.tickets ∧ (event.InOrder → move.Oldest) := by
  have outcome := step_outcome stepped
  cases outcome with
  | rejected _ => exact Or.inl rfl
  | allocated _ =>
      refine Or.inr ⟨.issue, ?_, fun _ => trivial⟩
      have issued := Moves.issue before.tickets
      simpa only [tickets, List.map_append, List.map_cons, List.map_nil] using issued
  | @refused index _ allocation taken _ =>
      refine Or.inr ⟨.discard index, ?_, fun _ => trivial⟩
      have held : before.tickets.held[index]? = some allocation.ticket := by
        simp [tickets, taken]
      have discarded := Moves.discard held
      simpa only [tickets, List.map_append, List.map_cons, List.map_nil, List.eraseIdx_map]
        using discarded
  | @handed index _ allocation _ taken =>
      refine Or.inr ⟨.use index, ?_, id⟩
      have held : before.tickets.held[index]? = some allocation.ticket := by
        simp [tickets, taken]
      have used := Moves.use held
      simpa only [tickets, List.map_append, List.map_cons, List.map_nil, List.eraseIdx_map]
        using used
  | shared _ => exact Or.inl rfl

theorem run_moves {first final : Sender} {events : List SendEvent}
    (ran : Run Steps first events final) :
    ∃ moves, Run Moves first.tickets moves final.tickets ∧
      ((∀ event ∈ events, event.InOrder) → ∀ move ∈ moves, move.Oldest) := by
  refine ran.history (fun state trace => ∃ moves, Run Moves first.tickets moves state.tickets ∧
    ((∀ event ∈ trace, event.InOrder) → ∀ move ∈ moves, move.Oldest))
    ⟨[], .nil, fun _ => by simp⟩ ?_
  intro state event next trace history stepped
  obtain ⟨moves, moved, ordered⟩ := history
  have earlier (inOrder : ∀ other ∈ trace ++ [event], other.InOrder) :
      ∀ move ∈ moves, move.Oldest :=
    ordered fun other member => inOrder other (List.mem_append_left _ member)
  rcases step_moves stepped with same | ⟨move, last, oldest⟩
  · exact ⟨moves, same ▸ moved, earlier⟩
  · refine ⟨moves ++ [move], .snoc moved last, fun inOrder other member => ?_⟩
    rcases List.mem_append.mp member with member | latest
    · exact earlier inOrder other member
    · rw [List.mem_singleton.mp latest]
      exact oldest (inOrder event (by simp))

theorem accounted_of_run {writeRegistered : Bool} {buffers : TransmitBuffers} {sender : Sender}
    {events : List SendEvent} (ran : Run Steps (new writeRegistered buffers) events sender) :
    Accounted sender.tickets := by
  obtain ⟨moves, moved, _⟩ := run_moves ran
  exact Accounted.run moved

theorem inOrder_of_run {writeRegistered : Bool} {buffers : TransmitBuffers} {sender : Sender}
    {events : List SendEvent} (ran : Run Steps (new writeRegistered buffers) events sender)
    (inOrder : ∀ event ∈ events, event.InOrder) : InOrder sender.tickets := by
  obtain ⟨moves, moved, ordered⟩ := run_moves ran
  exact InOrder.run moved (ordered inOrder)

def Carries (allocation : Allocation) : Prop :=
  allocation.sequenceNumber.toNat = sequenceNumberAt allocation.ticket

/-- What every reachable sender keeps. -/
structure Numbered (sender : Sender) : Prop where
  next : sender.transport.nextSequenceNumber.toNat = sequenceNumberAt sender.allocations
  pending : ∀ allocation ∈ sender.pending, Carries allocation
  refused : ∀ allocation ∈ sender.refused, Carries allocation ∧
    (sender.transport.writeRegistered = false ∨
      kMaxFrameSize < allocation.arguments.payload.length)
  handed : ∀ sent ∈ sender.handed, Carries sent.1 ∧
    sent.2 = encodeFrame sent.1.sequenceNumber sent.1.arguments.payload

theorem Numbered.step {before after : Sender} {event : SendEvent} (numbered : before.Numbered)
    (stepped : Steps before event after) : after.Numbered := by
  obtain ⟨next, pending, refused, handed⟩ := numbered
  have outcome := step_outcome stepped
  cases outcome with
  | rejected _ => exact ⟨next, pending, refused, handed⟩
  | allocated valid =>
      obtain ⟨allocated, later⟩ := nextSequence_numbered before.transport before.allocations next
      refine ⟨later, ?_, refused, handed⟩
      intro allocation member
      rcases List.mem_append.mp member with member | latest
      · exact pending allocation member
      · rw [List.mem_singleton.mp latest]
        exact allocated
  | @refused index _ allocation taken reason =>
      refine ⟨next, fun other member => pending other (List.mem_of_mem_eraseIdx member), ?_, handed⟩
      intro other member
      rcases List.mem_append.mp member with member | latest
      · exact refused other member
      · rw [List.mem_singleton.mp latest]
        exact ⟨pending allocation (List.mem_of_getElem? taken), reason⟩
  | @handed index _ allocation _ taken =>
      refine ⟨next, fun other member => pending other (List.mem_of_mem_eraseIdx member), refused,
        ?_⟩
      intro other member
      rcases List.mem_append.mp member with member | latest
      · exact handed other member
      · rw [List.mem_singleton.mp latest]
        exact ⟨pending allocation (List.mem_of_getElem? taken), rfl⟩
  | shared _ => exact ⟨next, pending, refused, handed⟩

theorem Numbered.run {writeRegistered : Bool} {buffers : TransmitBuffers} {sender : Sender}
    {events : List SendEvent} (ran : Run Steps (new writeRegistered buffers) events sender) :
    sender.Numbered :=
  ran.invariant Numbered (fun _ => True) ⟨rfl, by simp [new], by simp [new], by simp [new]⟩
    (fun _ _ _ numbered _ stepped => numbered.step stepped) fun _ _ => trivial

/-- The number on the wire is the one at the ticket of the call. -/
theorem Numbered.received {sender : Sender} (numbered : sender.Numbered)
    {sent : Allocation × Bytes} (member : sent ∈ sender.handed) :
    receivedSequenceNumber sent.2 = sent.1.sequenceNumber ∧
      (receivedSequenceNumber sent.2).toNat = sequenceNumberAt sent.1.ticket := by
  obtain ⟨carries, frame⟩ := numbered.handed sent member
  rw [frame, receivedSequenceNumber_encodeFrame]
  exact ⟨rfl, carries⟩

theorem Numbered.numbers {sender : Sender} (numbered : sender.Numbered) :
    sender.handed.map (fun sent => (receivedSequenceNumber sent.2).toNat) =
      (sender.handed.map fun sent => sent.1.ticket).map sequenceNumberAt := by
  rw [List.map_map]
  exact List.map_congr_left fun sent member => (numbered.received member).2

/-! ## The numbers on the wire -/

/-- What the receiver can rely on after the events of a run. -/
structure NumbersFrames (events : List SendEvent) (sender : Sender) : Prop where
  /-- The `k`-th allocation is given the number `(k - 1) mod 65535 + 1`. -/
  allocated : ∀ allocation ∈ sender.pending ++ (sender.refused ++ sender.handed.map Prod.fst),
    allocation.sequenceNumber.toNat = allocation.ticket % 65535 + 1
  /-- Every allocation is pending, refused or handed over, and only one of these. -/
  accounted : (sender.handed.map (fun sent => sent.1.ticket) ++
    (sender.refused.map Allocation.ticket ++ sender.pending.map Allocation.ticket)).Perm
      (List.range sender.allocations)
  refusals : ∀ allocation ∈ sender.refused, sender.transport.writeRegistered = false ∨
    kMaxFrameSize < allocation.arguments.payload.length
  /-- A frame carries the number of its own call, which is never zero. -/
  carried : ∀ sent ∈ sender.handed,
    sent.2 = encodeFrame sent.1.sequenceNumber sent.1.arguments.payload ∧
      receivedSequenceNumber sent.2 = sent.1.sequenceNumber ∧ receivedSequenceNumber sent.2 ≠ 0
  /-- A number is not repeated within 65535 allocations. -/
  repeated : sender.handed.Pairwise fun first second =>
    receivedSequenceNumber first.2 = receivedSequenceNumber second.2 →
      first.1.ticket + 65535 ≤ second.1.ticket ∨ second.1.ticket + 65535 ≤ first.1.ticket
  /-- Callers that transmit in turn hand their frames over in the order of the numbers. -/
  ordered : (∀ event ∈ events, event.InOrder) →
    (sender.handed.map fun sent => sent.1.ticket).Pairwise (· < ·)
  /-- If moreover no call is refused, the `k`-th frame carries the `k`-th number. -/
  consecutive : (∀ event ∈ events, event.InOrder) → sender.refused = [] →
    ∀ index (inside : index < sender.handed.length),
      (receivedSequenceNumber (sender.handed[index]).2).toNat = index % 65535 + 1

/-- **Sequence numbers of interleaved calls**, over every run. -/
theorem run_numbers_frames (writeRegistered : Bool) (buffers : TransmitBuffers)
    (events : List SendEvent) (sender : Sender)
    (ran : (new writeRegistered buffers).run events = some sender) :
    NumbersFrames events sender := by
  have stepped := steps_of_run ran
  have numbered := Numbered.run stepped
  have accounted := accounted_of_run stepped
  have distinct : (sender.handed.map fun sent => sent.1.ticket).Nodup :=
    (List.nodup_append.mp accounted.nodup).1
  refine ⟨?_, accounted, fun allocation member => (numbered.refused allocation member).2, ?_, ?_,
    ?_, ?_⟩
  · intro allocation member
    rcases List.mem_append.mp member with member | member
    · exact numbered.pending allocation member
    rcases List.mem_append.mp member with member | member
    · exact (numbered.refused allocation member).1
    · obtain ⟨sent, sentMember, rfl⟩ := List.mem_map.mp member
      exact (numbered.handed sent sentMember).1
  · intro sent member
    obtain ⟨received, number⟩ := numbered.received member
    refine ⟨(numbered.handed sent member).2, received, fun zero => ?_⟩
    rw [zero] at number
    exact sequenceNumberAt_ne_zero _ number.symm
  · refine (List.pairwise_map.mp distinct).imp_of_mem ?_
    intro first second firstMember secondMember different same
    have equal : sequenceNumberAt first.1.ticket = sequenceNumberAt second.1.ticket := by
      rw [← (numbered.received firstMember).2, ← (numbered.received secondMember).2, same]
    rcases Nat.lt_or_gt_of_ne different with earlier | later
    · exact Or.inl (sequenceNumberAt_repeats earlier equal)
    · exact Or.inr (sequenceNumberAt_repeats later equal.symm)
  · intro inOrder
    exact (List.pairwise_append.mp (inOrder_of_run stepped inOrder).sorted).1
  · intro inOrder none index inside
    have whole := (inOrder_of_run stepped inOrder).used_eq accounted (by simp [tickets, none])
    have here : (sender.tickets.used ++ sender.tickets.held)[index]? =
        some (sender.handed[index]).1.ticket := by
      rw [List.getElem?_append_left (by simpa [tickets] using inside)]
      simp [tickets, inside]
    rw [whole] at here
    obtain ⟨_, ticket⟩ := List.getElem?_eq_some_iff.mp here
    rw [List.getElem_range] at ticket
    rw [(numbered.received (List.getElem_mem inside)).2, ← ticket]
    rfl

def idleBuffers : TransmitBuffers := ⟨fun _ => .zeros, ⟨0, Nat.zero_lt_two⟩⟩

theorem run_numbers_frames_two_calls :
    ∃ sender, NumbersFrames
        [.begin (.ofBytes [1]), .transmit 0 true, .begin (.ofBytes [2]), .transmit 0 false]
        sender ∧
      sender.handed.map (fun sent => sent.1.ticket) = [0, 1] := by
  have tickets : ((new true idleBuffers).run [.begin (.ofBytes [1]), .transmit 0 true,
      .begin (.ofBytes [2]), .transmit 0 false]).map
        (fun sender => sender.handed.map fun sent => sent.1.ticket) = some [0, 1] := rfl
  obtain ⟨sender, ran, handed⟩ := Option.map_eq_some_iff.mp tickets
  exact ⟨sender, run_numbers_frames true idleBuffers _ sender ran, handed⟩

def oversized : SendArguments where
  payloadData := some (List.replicate 4097 0)
  payloadSizeBytes := 4097
  readable := by
    intro bytes same
    cases same
    rw [List.length_replicate]

def refusedInBetween : List SendEvent :=
  [.begin (.ofBytes [1]), .transmit 0 true, .begin oversized, .transmit 0 true,
    .begin (.ofBytes [2]), .transmit 0 true]

/-- Two callers, of which the one that came second transmits first. -/
def overtaking : List SendEvent :=
  [.begin (.ofBytes [1]), .begin (.ofBytes [2]), .transmit 1 true, .transmit 0 true]

theorem numbers_skip_and_swap :
    (∃ sender, (new true idleBuffers).run refusedInBetween = some sender ∧
      sender.handed.map (fun sent => (receivedSequenceNumber sent.2).toNat) = [1, 3]) ∧
    ∃ sender, (new true idleBuffers).run overtaking = some sender ∧
      sender.handed.map (fun sent => (receivedSequenceNumber sent.2).toNat) = [2, 1] := by
  have skipped : ((new true idleBuffers).run refusedInBetween).map
      (fun sender => sender.handed.map fun sent => sent.1.ticket) = some [0, 2] := rfl
  have swapped : ((new true idleBuffers).run overtaking).map
      (fun sender => sender.handed.map fun sent => sent.1.ticket) = some [1, 0] := rfl
  obtain ⟨first, firstRan, firstTickets⟩ := Option.map_eq_some_iff.mp skipped
  obtain ⟨second, secondRan, secondTickets⟩ := Option.map_eq_some_iff.mp swapped
  refine ⟨⟨first, firstRan, ?_⟩, second, secondRan, ?_⟩
  · rw [(Numbered.run (steps_of_run firstRan)).numbers, firstTickets]
    rfl
  · rw [(Numbered.run (steps_of_run secondRan)).numbers, secondTickets]
    rfl

/-! ## One caller -/

def sendEvents (arguments : SendArguments) (writeSucceeded : Bool) : List SendEvent :=
  if arguments.Invalid then [.begin arguments]
  else [.begin arguments, .transmit 0 writeSucceeded]

theorem inOrder_of_sendEvents (arguments : SendArguments) (writeSucceeded : Bool) :
    ∀ event ∈ sendEvents arguments writeSucceeded, event.InOrder := by
  unfold sendEvents
  split <;> simp [SendEvent.InOrder]

theorem run_send (sender : Sender) (idle : sender.pending = []) (arguments : SendArguments)
    (writeSucceeded : Bool) :
    ∃ after, sender.run (sendEvents arguments writeSucceeded) = some after ∧
      after.pending = [] ∧
      (after.transport, after.buffers) =
        (sender.transport.send arguments writeSucceeded sender.buffers).2.2 ∧
      after.handed.map Prod.snd = sender.handed.map Prod.snd ++
        (sender.transport.send arguments writeSucceeded sender.buffers).2.1.toList := by
  by_cases invalid : arguments.Invalid
  · refine ⟨sender, ?_, idle, ?_, ?_⟩ <;> simp [run, step, sendEvents, send, invalid]
  rcases result : sender.transport.nextSequence.2.transmitFrame .data
      sender.transport.nextSequence.1 arguments writeSucceeded sender.buffers with
    ⟨succeeded, _ | frame, later⟩
  · refine ⟨{ sender with
      transport := sender.transport.nextSequence.2
      buffers := later
      allocations := sender.allocations + 1
      refused := sender.refused ++ [⟨sender.allocations, sender.transport.nextSequence.1, arguments,
        invalid⟩] }, ?_, idle, ?_, ?_⟩
    · simp [run, step, sendEvents, invalid, idle, result]
    · simp [send, invalid, result]
    · simp [send, invalid, result]
  · refine ⟨{ sender with
      transport := sender.transport.nextSequence.2
      buffers := later
      allocations := sender.allocations + 1
      handed := sender.handed ++ [(⟨sender.allocations, sender.transport.nextSequence.1, arguments,
        invalid⟩, frame)] }, ?_, idle, ?_, ?_⟩
    · simp [run, step, sendEvents, invalid, idle, result]
    · simp [send, invalid, result]
    · simp [send, invalid, result]

/-- The calls of a single caller come through, and are in order. -/
theorem run_sends (calls : List (SendArguments × Bool)) (sender : Sender)
    (idle : sender.pending = []) :
    ∃ after, sender.run (calls.flatMap fun call => sendEvents call.1 call.2) = some after ∧
      after.pending = [] ∧
      ∀ event ∈ calls.flatMap fun call => sendEvents call.1 call.2, event.InOrder := by
  induction calls generalizing sender with
  | nil => exact ⟨sender, rfl, idle, by simp⟩
  | cons call rest ih =>
      obtain ⟨middle, first, middleIdle, _, _⟩ := sender.run_send idle call.1 call.2
      obtain ⟨after, later, afterIdle, ordered⟩ := ih middle middleIdle
      refine ⟨after, ?_, afterIdle, fun event member => ?_⟩
      · rw [List.flatMap_cons, run, List.foldlM_append]
        exact Option.bind_eq_some_iff.mpr ⟨middle, first, later⟩
      · rw [List.flatMap_cons] at member
        rcases List.mem_append.mp member with member | member
        · exact inOrder_of_sendEvents call.1 call.2 event member
        · exact ordered event member

end Sender

end Libcomm
