import Libcomm.FrameSender
import Libcomm.Library.BufferRing
import Mathlib.Data.List.Induction

/-!
# The transmit buffers

All transports lay their frames in the same two buffers, in turn.  A callback
that only starts a transfer relies on its frame until the buffer is used again.
The callers may overlap: a call of `Send` is made in one piece, or as the two
critical sections of `NextSequence` and `TransmitFrame` with those of other calls
in between.  Either way the buffers are a ring of two.
-/

set_option autoImplicit false

namespace Libcomm

open BufferRing

/-! ## Calls on several transports -/

structure WriteCall where
  /-- The buffer that the pointer leads to. -/
  buffer : Fin 2
  /-- The bytes that are to be sent. -/
  frame : Bytes
  /-- The buffers as the callback finds them. -/
  memory : Fin 2 → FrameBuffer

def WriteCall.filling (call : WriteCall) : Filling 2 FrameBuffer :=
  ⟨call.buffer, call.memory call.buffer, call.memory⟩

/-- The transports of a program, with the static variables of `TransmitFrame`. -/
structure Transmitters (Instance : Type) where
  transports : Instance → FrameTransport
  buffers : TransmitBuffers
  /-- Calls of the write callbacks so far. -/
  writes : List WriteCall

inductive TransmitterEvent (Instance : Type) where
  /-- A call of `Send` without any other in between. -/
  | send (transport : Instance) (arguments : SendArguments) (writeSucceeded : Bool)
  /-- `NextSequence`, in a call that others may overtake. -/
  | allocate (transport : Instance)
  /-- `TransmitFrame`, in a call that has been given its number before. -/
  | transmit (transport : Instance) (sequenceNumber : UInt16) (arguments : SendArguments)
      (writeSucceeded : Bool)

namespace Transmitters
variable {Instance : Type} [DecidableEq Instance]

def new (transports : Instance → FrameTransport) (buffers : TransmitBuffers) :
    Transmitters Instance :=
  ⟨transports, buffers, []⟩

def noteWrite (system : Transmitters Instance) (handed : Option Bytes)
    (buffers : TransmitBuffers) : Transmitters Instance :=
  { system with
    buffers := buffers
    writes := system.writes ++
      (handed.map fun frame =>
        ⟨system.buffers.activeBufferIndex, frame, buffers.transmitBuffers⟩).toList }

def setTransport (system : Transmitters Instance) (name : Instance) (transport : FrameTransport) :
    Transmitters Instance :=
  { system with transports := Function.update system.transports name transport }

def handle (system : Transmitters Instance) : TransmitterEvent Instance → Transmitters Instance
  | .send name arguments writeSucceeded =>
      let (_, handed, transport, buffers) :=
        (system.transports name).send arguments writeSucceeded system.buffers
      (system.setTransport name transport).noteWrite handed buffers
  | .allocate name => system.setTransport name (system.transports name).nextSequence.2
  | .transmit name sequenceNumber arguments writeSucceeded =>
      let (_, handed, buffers) := (system.transports name).transmitFrame .data sequenceNumber
        arguments writeSucceeded system.buffers
      system.noteWrite handed buffers

def run (system : Transmitters Instance) (events : List (TransmitterEvent Instance)) :
    Transmitters Instance :=
  events.foldl handle system

theorem run_snoc (system : Transmitters Instance) (events : List (TransmitterEvent Instance))
    (event : TransmitterEvent Instance) :
    system.run (events ++ [event]) = (system.run events).handle event := by
  simp [run]

def Rejects (system : Transmitters Instance) : TransmitterEvent Instance → Prop
  | .send name arguments _ =>
      arguments.Invalid ∨ (system.transports name).writeRegistered = false ∨
        kMaxFrameSize < arguments.payloadSizeBytes
  | .allocate _ => True
  | .transmit name _ arguments _ =>
      (system.transports name).writeRegistered = false ∨
        kMaxFrameSize < arguments.payloadSizeBytes

/-! ## One event -/

/-- The front of a newly filled buffer is handed over. -/
def Fills (system : Transmitters Instance) (content : FrameBuffer) (frame : Bytes)
    (after : Transmitters Instance) : Prop :=
  frame <+: content.bytes ∧ after.buffers = system.buffers.filled content ∧
    after.writes = system.writes ++ [⟨system.buffers.activeBufferIndex, frame,
      (system.buffers.filled content).transmitBuffers⟩]

theorem handle_send_invalid (system : Transmitters Instance) (name : Instance)
    {arguments : SendArguments} (invalid : arguments.Invalid) (writeSucceeded : Bool) :
    system.handle (.send name arguments writeSucceeded) = system := by
  simp [handle, FrameTransport.send, invalid, noteWrite, setTransport]

/-- A call that nothing interrupts is its two critical sections. -/
theorem handle_send (system : Transmitters Instance) (name : Instance)
    {arguments : SendArguments} (valid : ¬ arguments.Invalid) (writeSucceeded : Bool) :
    system.handle (.send name arguments writeSucceeded) =
      (system.handle (.allocate name)).handle (.transmit name
        (system.transports name).nextSequence.1 arguments writeSucceeded) := by
  simp only [handle, FrameTransport.send, if_neg valid, noteWrite, setTransport,
    Function.update_self]

theorem handle_transmit_rejects {system : Transmitters Instance} {name : Instance}
    {arguments : SendArguments}
    (rejected : (system.transports name).writeRegistered = false ∨
      kMaxFrameSize < arguments.payloadSizeBytes)
    (sequenceNumber : UInt16) (writeSucceeded : Bool) :
    system.handle (.transmit name sequenceNumber arguments writeSucceeded) = system := by
  have refused : (system.transports name).transmitFrame .data sequenceNumber arguments
      writeSucceeded system.buffers = (false, none, system.buffers) := by
    unfold FrameTransport.transmitFrame
    by_cases missing : ¬ (system.transports name).writeRegistered
    · rw [if_pos missing]
    · have large := rejected.resolve_left fun none => missing (by simp [none])
      rw [if_neg missing, dif_pos large]
  simp [handle, refused, noteWrite]

theorem handle_transmit_fills {system : Transmitters Instance} {name : Instance}
    {arguments : SendArguments}
    (accepted : ¬ ((system.transports name).writeRegistered = false ∨
      kMaxFrameSize < arguments.payloadSizeBytes))
    (sequenceNumber : UInt16) (writeSucceeded : Bool) :
    ∃ content frame, system.Fills content frame
      (system.handle (.transmit name sequenceNumber arguments writeSucceeded)) := by
  obtain ⟨registered, small⟩ := not_or.mp accepted
  have bound : ¬ ¬ (system.transports name).writeRegistered = true := by simpa using registered
  simp only [handle, FrameTransport.transmitFrame, if_neg bound, dif_neg small]
  exact ⟨_, _, List.take_prefix _ _, rfl, rfl⟩

theorem handle_rejects {system : Transmitters Instance} {event : TransmitterEvent Instance}
    (rejected : system.Rejects event) :
    (system.handle event).buffers = system.buffers ∧
      (system.handle event).writes = system.writes := by
  cases event with
  | send name arguments writeSucceeded =>
      by_cases invalid : arguments.Invalid
      · rw [handle_send_invalid system name invalid]
        exact ⟨rfl, rfl⟩
      · rw [handle_send system name invalid, handle_transmit_rejects]
        · exact ⟨rfl, rfl⟩
        · simpa [handle, setTransport] using rejected.resolve_left invalid
  | allocate name => exact ⟨rfl, rfl⟩
  | transmit name sequenceNumber arguments writeSucceeded =>
      rw [handle_transmit_rejects rejected]
      exact ⟨rfl, rfl⟩

theorem handle_fills {system : Transmitters Instance} {event : TransmitterEvent Instance}
    (accepted : ¬ system.Rejects event) :
    ∃ content frame, system.Fills content frame (system.handle event) := by
  cases event with
  | send name arguments writeSucceeded =>
      obtain ⟨valid, transmits⟩ := not_or.mp accepted
      rw [handle_send system name valid]
      refine @handle_transmit_fills _ _ (system.handle (.allocate name)) _ _ ?_ _ _
      simpa [handle, setTransport] using transmits
  | allocate name => exact absurd trivial accepted
  | transmit name sequenceNumber arguments writeSucceeded =>
      exact handle_transmit_fills accepted _ _

/-! ## The buffers are a ring -/

/-- The static variables and the calls so far, as a ring of two buffers. -/
def ring (system : Transmitters Instance) : Ring 2 FrameBuffer :=
  ⟨system.buffers.transmitBuffers, system.buffers.activeBufferIndex,
    system.writes.map WriteCall.filling⟩

omit [DecidableEq Instance] in
theorem Fills.ring_eq {system after : Transmitters Instance} {content : FrameBuffer}
    {frame : Bytes} (fills : system.Fills content frame after) :
    after.ring = system.ring.fill content := by
  obtain ⟨_, buffers, writes⟩ := fills
  simp only [ring, Ring.fill, buffers, writes, TransmitBuffers.filled, List.map_append,
    List.map_cons, List.map_nil, WriteCall.filling, Function.update_self]

/-- **A run fills the buffers in turn**, and hands over the front of what it filled. -/
theorem run_ring (transports : Instance → FrameTransport) (buffers : TransmitBuffers)
    (events : List (TransmitterEvent Instance)) :
    (∃ contents, ((new transports buffers).run events).ring =
      (Ring.start buffers.transmitBuffers buffers.activeBufferIndex).fillAll contents) ∧
    ∀ call ∈ ((new transports buffers).run events).writes,
      call.frame <+: (call.memory call.buffer).bytes := by
  induction events using List.reverseRecOn with
  | nil => exact ⟨⟨[], rfl⟩, by simp [run, new]⟩
  | append_singleton events event ih =>
      obtain ⟨⟨contents, filled⟩, fronts⟩ := ih
      rw [run_snoc]
      set system := (new transports buffers).run events
      by_cases rejected : system.Rejects event
      · obtain ⟨sameBuffers, sameWrites⟩ := handle_rejects rejected
        rw [sameWrites]
        refine ⟨⟨contents, ?_⟩, fronts⟩
        rw [ring, sameBuffers, sameWrites, ← filled]
        rfl
      · obtain ⟨content, frame, fills⟩ := handle_fills rejected
        refine ⟨⟨contents ++ [content], ?_⟩, ?_⟩
        · rw [fills.ring_eq, filled, Ring.fillAll_snoc]
        · intro call member
          rw [fills.2.2] at member
          rcases List.mem_append.mp member with member | latest
          · exact fronts call member
          · rw [List.mem_singleton.mp latest]
            simpa only [TransmitBuffers.filled, Function.update_self] using fills.1

/-- **A frame stays until the next but one**: the callback for a frame finds the
frame before it in the other buffer, and the buffers still hold the last two
frames between two calls.  A rejected call leaves them alone, any other one takes
the buffer that is due. -/
theorem transmitted_frame_stays (transports : Instance → FrameTransport)
    (buffers : TransmitBuffers) (events : List (TransmitterEvent Instance)) :
    let system := (new transports buffers).run events
    (∀ front previous next back, system.writes = front ++ previous :: next :: back →
      next.buffer ≠ previous.buffer ∧
        (next.memory previous.buffer).bytes.take previous.frame.length = previous.frame) ∧
    (∀ front call back, system.writes = front ++ call :: back → back.length ≤ 1 →
      (system.buffers.transmitBuffers call.buffer).bytes.take call.frame.length = call.frame) ∧
    ∀ event,
      (system.Rejects event →
        (system.handle event).buffers = system.buffers ∧
          (system.handle event).writes = system.writes) ∧
      (¬ system.Rejects event →
        ∃ call, (system.handle event).writes = system.writes ++ [call] ∧
          call.buffer = system.buffers.activeBufferIndex) := by
  intro system
  obtain ⟨⟨contents, filled⟩, fronts⟩ := run_ring transports buffers events
  have turns : Turns system.ring := by
    rw [filled]
    exact (Turns.start _ _).fillAll contents
  have front_eq {call : WriteCall} (member : call ∈ system.writes) {buffer : FrameBuffer}
      (same : buffer = call.memory call.buffer) :
      buffer.bytes.take call.frame.length = call.frame := by
    rw [same]
    exact (List.prefix_iff_eq_take.mp (fronts call member)).symm
  refine ⟨?_, ?_, fun event => ⟨handle_rejects, fun accepted => ?_⟩⟩
  · intro front previous next back whole
    have noted : system.ring.fillings = front.map WriteCall.filling ++
        previous.filling :: next.filling :: back.map WriteCall.filling := by
      simp [ring, whole]
    obtain ⟨other, held⟩ := turns.adjacent (by decide) noted
    exact ⟨other, front_eq (by simp [whole]) held⟩
  · intro front call back whole young
    have noted : system.ring.fillings[front.length]? = some call.filling := by
      simp [ring, whole]
    have held := (turns.recent front.length call.filling noted (by
      simp only [ring, whole, List.length_map, List.length_append, List.length_cons]
      omega)).2
    exact front_eq (by simp [whole]) held
  · obtain ⟨content, frame, _, _, writes⟩ := handle_fills accepted
    exact ⟨_, writes, rfl⟩

end Transmitters

end Libcomm
