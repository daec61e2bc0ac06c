import Mathlib.Algebra.Ring.Nat
import Mathlib.Data.List.Basic

/-!
# Scanning a stream for frames

A framing recognises a complete frame at the front of a string, and what follows
the frame does not matter.  `greedyScan` reads a whole string: it takes every
frame it meets and steps over one symbol where there is none.  `Advance` and
`Reads` describe a reader that sees the stream in pieces and keeps a buffer; how
much it may drop from the buffer without delivering is a parameter.  A reader
that only drops symbols at which no frame can begin agrees with the greedy scan
of every extension of the stream.
-/

set_option autoImplicit false

namespace FrameScan

structure Framing (Symbol Payload : Type) where
  /-- The length and the payload of the frame at the front, if there is one. -/
  recognise : List Symbol → Option (Nat × Payload)
  length_pos : ∀ {input length payload},
    recognise input = some (length, payload) → 0 < length
  length_le : ∀ {input length payload},
    recognise input = some (length, payload) → length ≤ input.length
  stable : ∀ {input found}, recognise input = some found →
    ∀ rest, recognise (input ++ rest) = some found
  contained : ∀ {input length payload}, recognise input = some (length, payload) →
    recognise (input.take length) = some (length, payload)

structure Found (Payload : Type) where
  position : Nat
  length : Nat
  payload : Payload
  deriving DecidableEq, Repr

variable {Symbol Payload : Type} (framing : Framing Symbol Payload)

/-! ## The greedy scan -/

def greedyScan (position : Nat) : List Symbol → List (Found Payload)
  | [] => []
  | symbol :: rest =>
      match recognised : framing.recognise (symbol :: rest) with
      | some (length, payload) =>
          ⟨position, length, payload⟩ ::
            greedyScan (position + length) ((symbol :: rest).drop length)
      | none => greedyScan (position + 1) rest
termination_by input => input.length
decreasing_by
  · have positive := framing.length_pos recognised
    rw [List.length_drop, List.length_cons]
    omega
  · simp

@[simp] theorem greedyScan_nil (position : Nat) : greedyScan framing position [] = [] := by
  rw [greedyScan]

theorem greedyScan_found (position : Nat) {input : List Symbol} {length : Nat} {payload : Payload}
    (recognised : framing.recognise input = some (length, payload)) :
    greedyScan framing position input =
      ⟨position, length, payload⟩ ::
        greedyScan framing (position + length) (input.drop length) := by
  cases input with
  | nil =>
      have positive := framing.length_pos recognised
      have inside := framing.length_le recognised
      simp only [List.length_nil] at inside
      omega
  | cons symbol rest =>
      rw [greedyScan]
      split
      · rename_i found
        rw [recognised] at found
        cases found
        rfl
      · rename_i missing
        rw [recognised] at missing
        cases missing

theorem greedyScan_cons (position : Nat) (symbol : Symbol) (rest : List Symbol)
    (missing : framing.recognise (symbol :: rest) = none) :
    greedyScan framing position (symbol :: rest) = greedyScan framing (position + 1) rest := by
  rw [greedyScan]
  split
  · rename_i found
    rw [missing] at found
    cases found
  · rfl

theorem greedyScan_bounds (position : Nat) (input : List Symbol) :
    ∀ found ∈ greedyScan framing position input,
      position ≤ found.position ∧ found.position + found.length ≤ position + input.length := by
  induction position, input using greedyScan.induct framing with
  | case1 position => simp
  | case2 position symbol rest length payload recognised ih =>
      have inside := framing.length_le recognised
      rw [greedyScan_found framing position recognised]
      intro found member
      rcases List.mem_cons.mp member with rfl | member
      · exact ⟨Nat.le_refl _, by simpa using inside⟩
      · have bounds := ih found member
        rw [List.length_drop] at bounds
        omega
  | case3 position symbol rest missing ih =>
      rw [greedyScan_cons framing position symbol rest missing]
      intro found member
      have bounds := ih found member
      rw [List.length_cons]
      omega

/-! ## Readers with a buffer -/

/-- No frame begins here, whatever follows. -/
def Dead (input : List Symbol) : Prop :=
  ∀ rest, framing.recognise (input ++ rest) = none

/-- No frame begins at any of the first `count` symbols. -/
def Skippable (input : List Symbol) (count : Nat) : Prop :=
  ∀ offset < count, Dead framing (input.drop offset)

/-- A buffer loses symbols at its front: a recognised frame, whose payload is
delivered, or a number of symbols that the policy allows to be dropped. -/
inductive Advance (droppable : List Symbol → Nat → Prop) :
    List Symbol → List Payload → List Symbol → Prop where
  | done (buffer : List Symbol) : Advance droppable buffer [] buffer
  | emit {buffer later : List Symbol} {length : Nat} {payload : Payload} {payloads : List Payload}
      (recognised : framing.recognise buffer = some (length, payload))
      (rest : Advance droppable (buffer.drop length) payloads later) :
      Advance droppable buffer (payload :: payloads) later
  | drop {buffer later : List Symbol} {count : Nat} {payloads : List Payload}
      (inside : count ≤ buffer.length) (allowed : droppable buffer count)
      (rest : Advance droppable (buffer.drop count) payloads later) :
      Advance droppable buffer payloads later

/-- A run of a reader: the stream so far, the payloads delivered, the buffer. -/
inductive Reads (droppable : List Symbol → Nat → Prop) :
    List Symbol → List Payload → List Symbol → Prop where
  | start : Reads droppable [] [] []
  | append {stream buffer : List Symbol} {delivered : List Payload} (chunk : List Symbol)
      (before : Reads droppable stream delivered buffer) :
      Reads droppable (stream ++ chunk) delivered (buffer ++ chunk)
  | advance {stream buffer later : List Symbol} {delivered payloads : List Payload}
      (before : Reads droppable stream delivered buffer)
      (moved : Advance framing droppable buffer payloads later) :
      Reads droppable stream (delivered ++ payloads) later

variable {framing}
variable {droppable : List Symbol → Nat → Prop}

namespace Advance

theorem trans {first second third : List Symbol} {front back : List Payload}
    (before : Advance framing droppable first front second)
    (after : Advance framing droppable second back third) :
    Advance framing droppable first (front ++ back) third := by
  induction before with
  | done buffer => exact after
  | emit recognised _ ih => exact .emit recognised (ih after)
  | drop inside allowed _ ih => exact .drop inside allowed (ih after)

theorem weaken {allowed : List Symbol → Nat → Prop} {buffer later : List Symbol}
    {payloads : List Payload} (moved : Advance framing droppable buffer payloads later)
    (implies : ∀ input count, droppable input count → allowed input count) :
    Advance framing allowed buffer payloads later := by
  induction moved with
  | done buffer => exact .done buffer
  | emit recognised _ ih => exact .emit recognised ih
  | drop inside policy _ ih => exact .drop inside (implies _ _ policy) ih

theorem suffix {buffer later : List Symbol} {payloads : List Payload}
    (moved : Advance framing droppable buffer payloads later) : later <:+ buffer := by
  induction moved with
  | done buffer => exact List.suffix_refl buffer
  | emit _ _ ih => exact ih.trans (List.drop_suffix _ _)
  | drop _ _ _ ih => exact ih.trans (List.drop_suffix _ _)

end Advance

/-! ## Agreement with the greedy scan -/

theorem greedyScan_skip (position : Nat) (count : Nat) (input rest : List Symbol)
    (inside : count ≤ input.length) (skippable : Skippable framing input count) :
    greedyScan framing position (input ++ rest) =
      greedyScan framing (position + count) (input.drop count ++ rest) := by
  induction count generalizing position input with
  | zero => rfl
  | succ count ih =>
      cases input with
      | nil => simp at inside
      | cons symbol tail =>
          have head : framing.recognise (symbol :: (tail ++ rest)) = none :=
            skippable 0 (by omega) rest
          have tailSkippable : Skippable framing tail count := fun offset bound =>
            skippable (offset + 1) (by omega)
          rw [List.cons_append, greedyScan_cons framing position symbol _ head,
            ih (position + 1) tail (by simpa using inside) tailSkippable, List.drop_succ_cons,
            Nat.add_assoc, Nat.add_comm 1 count]

/-- While the buffer advances over skippable symbols, the scan of whatever the
buffer will be extended to advances with it. -/
theorem Advance.greedyScan_eq {buffer later : List Symbol} {payloads : List Payload}
    (moved : Advance framing (Skippable framing) buffer payloads later) (position : Nat) :
    ∃ found : List (Found Payload), found.map Found.payload = payloads ∧
      ∀ rest, greedyScan framing position (buffer ++ rest) =
        found ++ greedyScan framing (position + (buffer.length - later.length))
          (later ++ rest) := by
  induction moved generalizing position with
  | done buffer => exact ⟨[], rfl, fun rest => by simp⟩
  | @emit buffer later length payload payloads recognised rest ih =>
      obtain ⟨found, payloadsEq, scan⟩ := ih (position + length)
      have inside := framing.length_le recognised
      have shorter := rest.suffix.length_le
      refine ⟨⟨position, length, payload⟩ :: found, by simp [payloadsEq], ?_⟩
      intro extension
      have offset : position + length + ((buffer.drop length).length - later.length) =
          position + (buffer.length - later.length) := by
        rw [List.length_drop] at shorter ⊢
        omega
      rw [greedyScan_found framing position (framing.stable recognised extension),
        List.drop_append_of_le_length inside, scan extension, offset, List.cons_append]
  | @drop buffer later count payloads inside skippable rest ih =>
      obtain ⟨found, payloadsEq, scan⟩ := ih (position + count)
      have shorter := rest.suffix.length_le
      refine ⟨found, payloadsEq, ?_⟩
      intro extension
      have offset : position + count + ((buffer.drop count).length - later.length) =
          position + (buffer.length - later.length) := by
        rw [List.length_drop] at shorter ⊢
        omega
      rw [greedyScan_skip position count buffer extension inside skippable, scan extension, offset]

namespace Reads

theorem suffix {stream buffer : List Symbol} {delivered : List Payload}
    (run : Reads framing droppable stream delivered buffer) : buffer <:+ stream := by
  induction run with
  | start => exact List.suffix_refl []
  | append chunk _ ih =>
      obtain ⟨front, rfl⟩ := ih
      exact ⟨front, by simp⟩
  | advance _ moved ih => exact moved.suffix.trans ih

/-- **A careful reader refines the greedy scan** of the stream and of every
extension of it. -/
theorem greedyScan_eq {stream buffer : List Symbol} {delivered : List Payload}
    (run : Reads framing (Skippable framing) stream delivered buffer) :
    ∃ found : List (Found Payload), found.map Found.payload = delivered ∧
      ∀ rest, greedyScan framing 0 (stream ++ rest) =
        found ++ greedyScan framing (stream.length - buffer.length) (buffer ++ rest) := by
  induction run with
  | start => exact ⟨[], rfl, fun rest => rfl⟩
  | @append stream buffer delivered chunk before ih =>
      obtain ⟨found, payloads, scan⟩ := ih
      have shorter := before.suffix.length_le
      have offset : (stream ++ chunk).length - (buffer ++ chunk).length =
          stream.length - buffer.length := by
        simp only [List.length_append]
        omega
      refine ⟨found, payloads, fun rest => ?_⟩
      rw [List.append_assoc, scan, offset, List.append_assoc]
  | @advance stream buffer later delivered payloads before moved ih =>
      obtain ⟨found, deliveredEq, scan⟩ := ih
      have shorter := before.suffix.length_le
      have shorterStill := moved.suffix.length_le
      obtain ⟨more, payloadsEq, moreScan⟩ :=
        moved.greedyScan_eq (stream.length - buffer.length)
      have offset : stream.length - buffer.length + (buffer.length - later.length) =
          stream.length - later.length := by omega
      refine ⟨found ++ more, by simp [deliveredEq, payloadsEq], fun rest => ?_⟩
      rw [scan, moreScan, offset, List.append_assoc]

end Reads

/-! ## Blocks of the stream -/

/-- Frames of a stream, one behind the other, none beyond `bound`. -/
structure DisjointFrames (framing : Framing Symbol Payload) (stream : List Symbol)
    (blocks : List (Found Payload)) (bound : Nat) : Prop where
  ordered : blocks.Pairwise fun first second => first.position + first.length ≤ second.position
  bounded : ∀ block ∈ blocks, block.position + block.length ≤ bound
  framed : ∀ block ∈ blocks,
    framing.recognise ((stream.drop block.position).take block.length) =
      some (block.length, block.payload)

theorem DisjointFrames.append {stream : List Symbol} {front back : List (Found Payload)}
    {middle bound : Nat} (before : DisjointFrames framing stream front middle)
    (after : DisjointFrames framing stream back bound) (le : middle ≤ bound)
    (starts : ∀ block ∈ back, middle ≤ block.position) :
    DisjointFrames framing stream (front ++ back) bound := by
  refine ⟨?_, ?_, ?_⟩
  · refine List.pairwise_append.mpr ⟨before.ordered, after.ordered, ?_⟩
    intro first firstMember second secondMember
    exact Nat.le_trans (before.bounded first firstMember) (starts second secondMember)
  · intro block member
    rcases List.mem_append.mp member with member | member
    · exact Nat.le_trans (before.bounded block member) le
    · exact after.bounded block member
  · intro block member
    rcases List.mem_append.mp member with member | member
    · exact before.framed block member
    · exact after.framed block member

theorem Advance.disjointFrames {buffer later : List Symbol} {payloads : List Payload}
    (moved : Advance framing droppable buffer payloads later) (front : List Symbol) :
    ∃ blocks : List (Found Payload), blocks.map Found.payload = payloads ∧
      (∀ block ∈ blocks, front.length ≤ block.position) ∧
      DisjointFrames framing (front ++ buffer) blocks
        (front.length + buffer.length - later.length) := by
  induction moved generalizing front with
  | done buffer => exact ⟨[], rfl, by simp, ⟨List.Pairwise.nil, by simp, by simp⟩⟩
  | @emit buffer later length payload payloads recognised rest ih =>
      have inside := framing.length_le recognised
      have shorter := rest.suffix.length_le
      have taken : (buffer.take length).length = length := List.length_take_of_le inside
      obtain ⟨blocks, payloadsEq, starts, frames⟩ := ih (front ++ buffer.take length)
      rw [List.append_assoc, List.take_append_drop, List.length_append, taken] at frames
      rw [List.length_append, taken] at starts
      rw [List.length_drop] at frames shorter
      have headFrame : DisjointFrames framing (front ++ buffer)
          [⟨front.length, length, payload⟩] (front.length + length) := by
        refine ⟨List.pairwise_singleton _ _, by simp, ?_⟩
        intro block member
        rw [List.mem_singleton.mp member, List.drop_left]
        exact framing.contained recognised
      refine ⟨⟨front.length, length, payload⟩ :: blocks, by simp [payloadsEq], ?_, ?_⟩
      · intro block member
        rcases List.mem_cons.mp member with rfl | member
        · exact Nat.le_refl _
        · exact Nat.le_trans (Nat.le_add_right _ _) (starts block member)
      · have bound : front.length + length + (buffer.length - length) - later.length =
            front.length + buffer.length - later.length := by omega
        rw [bound] at frames
        exact headFrame.append frames (by omega) starts
  | @drop buffer later count payloads inside allowed rest ih =>
      have shorter := rest.suffix.length_le
      have taken : (buffer.take count).length = count := List.length_take_of_le inside
      obtain ⟨blocks, payloadsEq, starts, frames⟩ := ih (front ++ buffer.take count)
      rw [List.append_assoc, List.take_append_drop, List.length_append, taken,
        List.length_drop] at frames
      rw [List.length_append, taken] at starts
      have bound : front.length + count + (buffer.length - count) - later.length =
          front.length + buffer.length - later.length := by omega
      rw [bound] at frames
      exact ⟨blocks, payloadsEq,
        fun block member => Nat.le_trans (Nat.le_add_right _ _) (starts block member), frames⟩

/-- **No frame is made up, repeated or reordered**, whatever a reader drops. -/
theorem Reads.disjointFrames {stream buffer : List Symbol} {delivered : List Payload}
    (run : Reads framing droppable stream delivered buffer) :
    ∃ blocks : List (Found Payload), blocks.map Found.payload = delivered ∧
      DisjointFrames framing stream blocks (stream.length - buffer.length) := by
  induction run with
  | start => exact ⟨[], rfl, ⟨List.Pairwise.nil, by simp, by simp⟩⟩
  | @append stream buffer delivered chunk before ih =>
      obtain ⟨blocks, payloads, frames⟩ := ih
      have shorter := before.suffix.length_le
      have bound : (stream ++ chunk).length - (buffer ++ chunk).length =
          stream.length - buffer.length := by
        simp only [List.length_append]
        omega
      rw [bound]
      refine ⟨blocks, payloads, frames.ordered, frames.bounded, ?_⟩
      intro block member
      have inside := frames.bounded block member
      rw [List.drop_append_of_le_length (by omega),
        List.take_append_of_le_length (by rw [List.length_drop]; omega)]
      exact frames.framed block member
  | @advance stream buffer later delivered payloads before moved ih =>
      obtain ⟨blocks, deliveredEq, frames⟩ := ih
      obtain ⟨front, rfl⟩ := before.suffix
      obtain ⟨more, payloadsEq, starts, moreFrames⟩ := moved.disjointFrames front
      have shorter := moved.suffix.length_le
      rw [List.length_append, Nat.add_sub_cancel] at frames
      rw [List.length_append]
      exact ⟨blocks ++ more, by simp [deliveredEq, payloadsEq],
        frames.append moreFrames (by omega) starts⟩

/-! ## Nothing dropped -/

/-- A buffer that drops nothing is the frames it delivered and what is left. -/
theorem Advance.eq_frames {buffer later : List Symbol} {payloads : List Payload}
    (moved : Advance framing (fun _ _ => False) buffer payloads later) :
    ∃ frames : List (List Symbol), buffer = frames.flatten ++ later ∧
      List.Forall₂ (fun frame payload => framing.recognise frame = some (frame.length, payload))
        frames payloads := by
  induction moved with
  | done buffer => exact ⟨[], rfl, .nil⟩
  | @emit buffer later length payload payloads recognised _ ih =>
      obtain ⟨frames, split, matched⟩ := ih
      have taken : (buffer.take length).length = length :=
        List.length_take_of_le (framing.length_le recognised)
      refine ⟨buffer.take length :: frames, ?_, .cons ?_ matched⟩
      · rw [List.flatten_cons, List.append_assoc, ← split, List.take_append_drop]
      · rw [taken]
        exact framing.contained recognised
  | drop _ never _ _ => exact never.elim

/-! ## Frames behind noise -/

def layout (position : Nat) : List (Nat × Payload) → List (Found Payload)
  | [] => []
  | (length, payload) :: rest =>
      ⟨position, length, payload⟩ :: layout (position + length) rest

theorem layout_payloads (position : Nat) (items : List (Nat × Payload)) :
    (layout position items).map Found.payload = items.map Prod.snd := by
  induction items generalizing position with
  | nil => rfl
  | cons item items ih => rw [layout, List.map_cons, List.map_cons, ih]

theorem layout_getElem? (position : Nat) (items : List (Nat × Payload)) (index : Nat) :
    (layout position items)[index]? = items[index]?.map fun item =>
      ⟨position + ((items.take index).map Prod.fst).sum, item.1, item.2⟩ := by
  induction items generalizing position index with
  | nil => rfl
  | cons item items ih =>
      cases index with
      | zero => rfl
      | succ index =>
          rw [layout, List.getElem?_cons_succ, List.getElem?_cons_succ, ih, List.take_succ_cons,
            List.map_cons, List.sum_cons, Nat.add_assoc]

/-- Where no frame begins the scan goes on byte by byte. -/
theorem greedyScan_miss (position : Nat) {input : List Symbol} {count : Nat}
    (missing : ∀ offset < count, framing.recognise (input.drop offset) = none)
    (inside : count ≤ input.length) :
    greedyScan framing position input =
      greedyScan framing (position + count) (input.drop count) := by
  induction count generalizing position input with
  | zero => rfl
  | succ count ih =>
      cases input with
      | nil => exact absurd inside (Nat.not_succ_le_zero count)
      | cons symbol rest =>
          rw [greedyScan_cons framing position symbol rest (missing 0 (Nat.succ_pos count)),
            ih (position + 1) (fun offset before => missing (offset + 1) (Nat.succ_lt_succ before))
              (Nat.le_of_succ_le_succ inside), List.drop_succ_cons, Nat.add_assoc,
            Nat.add_comm 1 count]

theorem greedyScan_frames (position : Nat) {frames : List (List Symbol)} {payloads : List Payload}
    (framed : List.Forall₂
      (fun frame payload => framing.recognise frame = some (frame.length, payload))
      frames payloads) (rest : List Symbol) :
    greedyScan framing position (frames.flatten ++ rest) =
      layout position ((frames.map List.length).zip payloads) ++
        greedyScan framing (position + frames.flatten.length) rest := by
  induction framed generalizing position with
  | nil => rfl
  | @cons frame payload frames payloads recognised _ ih =>
      rw [List.flatten_cons, List.append_assoc,
        greedyScan_found framing position (framing.stable recognised _), List.drop_left, ih,
        List.map_cons, List.zip_cons_cons, layout, List.cons_append, List.length_append,
        Nat.add_assoc]

end FrameScan
