import Libcomm.SequenceNumbers
import Libcomm.StreamCleanStream

/-!
# A link

Two processors and the serial line between them: callers of `Send` on one side,
interleaved in any way, a stream processor on the other, and a driver that passes on
what is on the line in chunks of its own choice.  In every run the receiver is given
the payloads of the written frames, in the order in which they were written.
-/

set_option autoImplicit false

namespace Libcomm

open Sender StreamProcessor

/-! ## The system -/

def SendEvent.writes : SendEvent → Bool
  | .begin _ => false
  | .transmit _ writeSucceeded => writeSucceeded
  | .share _ => false

structure Link where
  sender : Sender
  /-- The calls whose frames the write callback has taken, with their frames. -/
  written : List (Allocation × Bytes)
  /-- The bytes that the line has taken and not yet fed. -/
  wire : Bytes
  receiver : StreamProcessor

inductive LinkEvent where
  | send (event : SendEvent)
  /-- The next bytes of the line are fed. -/
  | deliver (count : Nat)

namespace Link

def new (writeRegistered : Bool) (buffers : TransmitBuffers) (buffer : FrameBuffer) : Link :=
  ⟨.new writeRegistered buffers, [], [], .empty buffer⟩

/-- The driver feeds no more than the receiver has room for. -/
def step (sizeType : SizeType) (callbacks : Callbacks) (link : Link) : LinkEvent → Option Link
  | .send event =>
      match link.sender.step event with
      | none => none
      | some sender =>
          let taken := if event.writes then sender.handed.drop link.sender.handed.length else []
          some { link with
            sender := sender
            written := link.written ++ taken
            wire := link.wire ++ (taken.map Prod.snd).flatten }
  | .deliver count =>
      if count ≤ link.wire.length ∧ link.receiver.getBufferUsage + count ≤ kBufferCapacity then
        (link.receiver.feed sizeType callbacks (some (link.wire.take count))).map fun receiver =>
          { link with
            wire := link.wire.drop count
            receiver := receiver }
      else none

def run (sizeType : SizeType) (callbacks : Callbacks) (link : Link) (events : List LinkEvent) :
    Option Link :=
  events.foldlM (step sizeType callbacks) link

end Link

/-! ## The sender's side -/

def Allocation.packet (allocation : Allocation) : Packet :=
  (allocation.sequenceNumber, allocation.arguments.payload)

def Written (sent : Allocation × Bytes) : Prop :=
  sent.2 = encodePacket sent.1.packet ∧ sent.1.packet.2.length ≤ kMaxFrameSize

theorem Sender.step_hands {before after : Sender} {event : SendEvent}
    (stepped : before.step event = some after) :
    ∃ taken : List (Allocation × Bytes), after.handed = before.handed ++ taken ∧
      ∀ sent ∈ taken, Written sent := by
  have nothing (same : after.handed = before.handed) :
      ∃ taken : List (Allocation × Bytes), after.handed = before.handed ++ taken ∧
        ∀ sent ∈ taken, Written sent :=
    ⟨[], same.trans (List.append_nil _).symm, nofun⟩
  cases event with
  | begin arguments =>
      rw [Sender.step] at stepped
      split at stepped <;> cases stepped <;> exact nothing rfl
  | transmit index writeSucceeded =>
      simp only [Sender.step] at stepped
      cases taken : before.pending[index]? with
      | none => simp [taken] at stepped
      | some allocation =>
          simp only [taken] at stepped
          rcases before.transport.transmitFrame_cases allocation.sequenceNumber allocation.valid
              writeSucceeded before.buffers with ⟨_, result⟩ | ⟨small, later, result⟩
          · simp only [result] at stepped
            cases stepped
            exact nothing rfl
          · simp only [result] at stepped
            cases stepped
            refine ⟨_, rfl, ?_⟩
            intro sent member
            rw [List.mem_singleton.mp member]
            exact ⟨rfl, small⟩
  | share buffers =>
      cases stepped
      exact nothing rfl

/-! ## The receiver's side -/

namespace StreamProcessor
variable {done rest more : List Packet} {unfed : Bytes} {processor : StreamProcessor}

/-- Further frames on the line do not disturb what is awaited. -/
theorem Aligned.extend (aligned : Aligned done rest unfed processor)
    (small : ∀ packet ∈ more, packet.2.length ≤ kMaxFrameSize) :
    Aligned done (rest ++ more) (unfed ++ encodePackets more) processor where
  inRange := aligned.inRange
  small := by
    intro packet member
    rcases List.mem_append.mp member with earlier | later
    · exact aligned.small packet earlier
    · exact small packet later
  invocations_eq := aligned.invocations_eq
  split := by rw [← List.append_assoc, aligned.split, encodePackets_append]

theorem Waiting.extend (aligned : Aligned done rest unfed processor)
    (waiting : Waiting rest processor) : Waiting (rest ++ more) processor := by
  cases rest with
  | cons packet rest => exact waiting
  | nil =>
      have nothing : processor.live = [] := (List.append_eq_nil_iff.mp aligned.split).1
      intro packet _
      rw [nothing, encodePacket, encodeFrame_length]
      exact Nat.lt_of_lt_of_le (by decide : 0 < kCrcSize) (Nat.le_add_left _ _)

theorem Waiting.room (aligned : Aligned done rest unfed processor)
    (waiting : Waiting rest processor) : processor.size < kBufferCapacity := by
  rw [← live_length aligned.inRange]
  cases rest with
  | nil =>
      have nothing : processor.live = [] := (List.append_eq_nil_iff.mp aligned.split).1
      rw [nothing]
      decide
  | cons packet rest =>
      have short := waiting packet rfl
      have small := aligned.small packet List.mem_cons_self
      rw [encodePacket, encodeFrame_length] at short
      simp only [kBufferCapacity]
      omega

end StreamProcessor

/-! ## Runs -/

namespace Link

/-- Every written frame has been delivered, or is in the receiver and on the line. -/
structure Flows (link : Link) : Prop where
  handed : link.written.Sublist link.sender.handed
  frames : ∀ sent ∈ link.written, Written sent
  stream : ∃ done rest, link.written.map (fun sent => sent.1.packet) = done ++ rest ∧
    Aligned done rest link.wire link.receiver ∧ Waiting rest link.receiver

theorem flows_new (writeRegistered : Bool) (buffers : TransmitBuffers) (buffer : FrameBuffer) :
    (new writeRegistered buffers buffer).Flows :=
  ⟨List.nil_sublist _, nofun, [], [], rfl, ⟨Nat.zero_le _, nofun, rfl, rfl⟩, nofun⟩

theorem written_flatten {taken : List (Allocation × Bytes)}
    (frames : ∀ sent ∈ taken, Written sent) :
    (taken.map Prod.snd).flatten = encodePackets (taken.map fun sent => sent.1.packet) := by
  rw [encodePackets, List.map_map]
  exact congrArg List.flatten (List.map_congr_left fun sent member => (frames sent member).1)

section Steps
variable {callbacks : Callbacks} {sizeType : SizeType} {link after : Link}

theorem Flows.deliver (quiet : callbacks.Quiet) (registered : callbacks.frameRegistered = true)
    (flows : link.Flows) {count : Nat} (inside : count ≤ link.wire.length)
    (fits : link.receiver.getBufferUsage + count ≤ kBufferCapacity) :
    ∃ next, link.step sizeType callbacks (.deliver count) = some next ∧ next.Flows ∧
      next.wire = link.wire.drop count ∧ next.written = link.written := by
  obtain ⟨handed, frames, done, rest, split, aligned, waiting⟩ := flows
  rw [← List.take_append_drop count link.wire] at aligned
  obtain ⟨receiver, delivered, left, fed, rest_eq, laterAligned, laterWaiting⟩ :=
    aligned.feed quiet registered sizeType waiting
      (by rwa [List.length_take_of_le inside, ← getBufferUsage])
  refine ⟨{ link with wire := link.wire.drop count, receiver := receiver }, ?_,
    ⟨handed, frames, done ++ delivered, left, ?_, laterAligned, laterWaiting⟩, rfl, rfl⟩
  · rw [step, if_pos ⟨inside, fits⟩, fed]
    rfl
  · rw [split, rest_eq, List.append_assoc]

theorem Flows.send (flows : link.Flows) {event : SendEvent}
    (stepped : link.step sizeType callbacks (.send event) = some after) : after.Flows := by
  rw [step] at stepped
  cases sent : link.sender.step event with
  | none => simp [sent] at stepped
  | some sender =>
      obtain ⟨handed, frames, done, rest, split, aligned, waiting⟩ := flows
      obtain ⟨taken, grown, written⟩ := Sender.step_hands sent
      simp only [sent, grown, List.drop_left] at stepped
      cases writes : event.writes with
      | false =>
          simp only [writes, Bool.false_eq_true, if_false, List.append_nil, List.map_nil,
            List.flatten_nil] at stepped
          cases stepped
          refine ⟨handed.trans ?_, frames, done, rest, split, aligned, waiting⟩
          rw [grown]
          exact List.sublist_append_left _ _
      | true =>
          simp only [writes, if_true] at stepped
          cases stepped
          refine ⟨?_, ?_, done, rest ++ taken.map fun sent => sent.1.packet, ?_, ?_,
            waiting.extend aligned⟩
          · dsimp only
            rw [grown]
            exact handed.append (List.Sublist.refl _)
          · intro sent member
            rcases List.mem_append.mp member with earlier | later
            · exact frames sent earlier
            · exact written sent later
          · rw [List.map_append, split, List.append_assoc]
          · rw [written_flatten written]
            refine aligned.extend ?_
            intro packet member
            obtain ⟨sent, sentMember, rfl⟩ := List.mem_map.mp member
            exact (written sent sentMember).2

theorem Flows.step (quiet : callbacks.Quiet) (registered : callbacks.frameRegistered = true)
    (flows : link.Flows) {event : LinkEvent}
    (stepped : link.step sizeType callbacks event = some after) : after.Flows := by
  cases event with
  | send event => exact flows.send stepped
  | deliver count =>
      rw [Link.step] at stepped
      split at stepped
      next guard =>
        obtain ⟨next, delivered, nextFlows, _⟩ :=
          @Flows.deliver callbacks sizeType link quiet registered flows count guard.1 guard.2
        rw [Link.step, if_pos guard] at delivered
        cases delivered.symm.trans stepped
        exact nextFlows
      next => cases stepped

theorem Flows.run (quiet : callbacks.Quiet) (registered : callbacks.frameRegistered = true)
    (events : List LinkEvent) {link : Link} (flows : link.Flows)
    (ran : link.run sizeType callbacks events = some after) : after.Flows := by
  induction events generalizing link with
  | nil =>
      cases ran
      exact flows
  | cons event events ih =>
      obtain ⟨middle, stepped, later⟩ := Option.bind_eq_some_iff.mp ran
      exact ih (flows.step quiet registered stepped) later

/-- Passed on byte by byte, the line can always be emptied. -/
theorem Flows.drain (quiet : callbacks.Quiet) (registered : callbacks.frameRegistered = true)
    (sizeType : SizeType) {link : Link} (flows : link.Flows) :
    ∃ drained, link.run sizeType callbacks (List.replicate link.wire.length (.deliver 1)) =
        some drained ∧
      drained.Flows ∧ drained.wire = [] ∧ drained.written = link.written := by
  generalize length : link.wire.length = count
  induction count generalizing link with
  | zero => exact ⟨link, rfl, flows, List.length_eq_zero_iff.mp length, rfl⟩
  | succ count ih =>
      have room : link.receiver.getBufferUsage + 1 ≤ kBufferCapacity := by
        obtain ⟨_, _, _, _, _, aligned, waiting⟩ := flows
        exact waiting.room aligned
      obtain ⟨middle, stepped, middleFlows, wire, written⟩ :=
        @Flows.deliver callbacks sizeType link quiet registered flows 1 (by omega) room
      obtain ⟨drained, ran, drainedFlows, empty, same⟩ :=
        ih middleFlows (by rw [wire, List.length_drop, length, Nat.add_sub_cancel])
      refine ⟨drained, ?_, drainedFlows, empty, same.trans written⟩
      rw [List.replicate_succ, Link.run, List.foldlM_cons, stepped]
      exact ran

end Steps

def deliveriesOf (written : List (Allocation × Bytes)) : List Invocation :=
  written.map fun sent => .frame sent.1.arguments.payload

theorem deliveries_packets (written : List (Allocation × Bytes)) :
    deliveries (written.map fun sent => sent.1.packet) = deliveriesOf written := by
  rw [deliveries, List.map_map]
  rfl

theorem Flows.delivered {link : Link} (flows : link.Flows) :
    ∃ delivered waiting, link.written = delivered ++ waiting ∧
      link.receiver.invocations = deliveriesOf delivered ∧
      link.receiver.live ++ link.wire = (waiting.map Prod.snd).flatten ∧
      (link.wire = [] → waiting = []) := by
  obtain ⟨_, frames, done, rest, split, aligned, awaited⟩ := flows
  obtain ⟨delivered, waiting, whole, rfl, rfl⟩ := List.map_eq_append_iff.mp split
  have later : ∀ sent ∈ waiting, Written sent := fun sent member =>
    frames sent (whole ▸ List.mem_append_right _ member)
  refine ⟨delivered, waiting, whole, ?_, ?_, fun empty => ?_⟩
  · rw [aligned.invocations_eq, deliveries_packets]
  · rw [aligned.split, written_flatten later]
  · cases waiting with
    | nil => rfl
    | cons sent waiting =>
        have short := awaited sent.1.packet rfl
        have buffered := congrArg List.length aligned.split
        rw [empty, List.append_nil, List.map_cons, encodePackets_cons, List.length_append]
          at buffered
        omega

/-- **The link loses nothing, adds nothing and keeps the order.**  In every run, with
any number of callers inside `Send` and any chunks on the line, the receiver has been
given the payloads of a front part of the written frames, each once and in the order of
writing, and no error; the other frames are in its buffer and on the line, and once the
line is passed on they have been delivered too. -/
theorem link_delivers {callbacks : Callbacks} (quiet : callbacks.Quiet)
    (registered : callbacks.frameRegistered = true) (sizeType : SizeType)
    (writeRegistered : Bool) (buffers : TransmitBuffers) (buffer : FrameBuffer)
    (events : List LinkEvent) (link : Link)
    (ran : (new writeRegistered buffers buffer).run sizeType callbacks events = some link) :
    link.written.Sublist link.sender.handed ∧
      (∃ delivered waiting, link.written = delivered ++ waiting ∧
        link.receiver.invocations = deliveriesOf delivered ∧
        link.receiver.live ++ link.wire = (waiting.map Prod.snd).flatten) ∧
      ∃ drained, link.run sizeType callbacks (List.replicate link.wire.length (.deliver 1)) =
          some drained ∧
        drained.written = link.written ∧
        drained.receiver.invocations = deliveriesOf link.written := by
  have flows := (flows_new writeRegistered buffers buffer).run quiet registered events ran
  obtain ⟨delivered, waiting, whole, invoked, buffered, _⟩ := flows.delivered
  obtain ⟨drained, emptied, drainedFlows, empty, same⟩ := flows.drain quiet registered sizeType
  refine ⟨flows.handed, ⟨delivered, waiting, whole, invoked, buffered⟩, drained, emptied, same, ?_⟩
  obtain ⟨all, nothing, split, invocations, _, last⟩ := drainedFlows.delivered
  rw [invocations, ← same, split, last empty, List.append_nil]

/-- Two callers are inside `Send` at the same time, and the later one transmits first. -/
def overtakenSend : List LinkEvent :=
  [.send (.begin (.ofBytes [0xAB])), .send (.begin (.ofBytes [0xCD])), .send (.transmit 1 true),
    .send (.transmit 0 true)]

theorem link_delivers_overtaken_send :
    ∃ link, (new true idleBuffers .zeros).run .bits32 listeningCallbacks overtakenSend =
        some link ∧
      link.written.Sublist link.sender.handed ∧
      (∃ delivered waiting, link.written = delivered ++ waiting ∧
        link.receiver.invocations = deliveriesOf delivered ∧
        link.receiver.live ++ link.wire = (waiting.map Prod.snd).flatten) ∧
      ∃ drained, link.run .bits32 listeningCallbacks
          (List.replicate link.wire.length (.deliver 1)) = some drained ∧
        drained.written = link.written ∧
        drained.receiver.invocations = deliveriesOf link.written :=
  ⟨_, rfl, link_delivers listeningCallbacks_quiet rfl .bits32 true idleBuffers .zeros
    overtakenSend _ rfl⟩

end Link

end Libcomm
