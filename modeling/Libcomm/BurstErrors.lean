import Libcomm.FrameFormat

/-!
# Burst errors

Every error pattern confined to 32 consecutive bits of a frame is rejected by
`HandleIncoming`, wherever the window lies.  An accepted string of the frame's
length leaves the checksum register at the residue, as the frame itself does, so
the difference of the two would leave a zero register at zero.
-/

set_option autoImplicit false

namespace Libcomm

open ReflectedCrc

/-- The bit of a byte string at an index; bytes in order, lowest bit first. -/
def frameBit (bytes : Bytes) (index : Nat) : Bool :=
  (bytes.getD (index / 8) 0).toBitVec.getLsbD (index % 8)

theorem frameBit_inside (bytes : Bytes) (index : Nat) (isSet : frameBit bytes index = true) :
    index < 8 * bytes.length := by
  by_contra outside
  rw [frameBit, List.getD_eq_default _ _ (by omega)] at isSet
  simp at isSet

def xorBytes (left right : Bytes) : Bytes := List.zipWith (· ^^^ ·) left right

theorem crcRegister_encodeFrame (sequenceNumber : UInt16) (payload : Bytes) :
    crcRegister (encodeFrame sequenceNumber payload) = crcResidue := by
  rw [encodeFrame, crcRegister_eq_residue_iff]

theorem crcRegister_xorBytes (bytes pattern : Bytes) (sameLength : bytes.length = pattern.length) :
    crcRegister (xorBytes bytes pattern) =
      crcRegister bytes ^^^ feedBits crcPolynomial 0#32 (messageBits pattern) := by
  have bitLength : (messageBits bytes).length = (messageBits pattern).length := by
    rw [messageBits_length, messageBits_length, sameLength]
  rw [crcRegister, xorBytes, messageBits_xor bytes pattern sameLength, crcRegister,
    ← feedBits_xor crcPolynomial _ _ bitLength, BitVec.xor_zero]

theorem xorBytes_length (bytes pattern : Bytes) (sameLength : bytes.length = pattern.length) :
    (xorBytes bytes pattern).length = bytes.length := by
  rw [xorBytes, List.length_zipWith, ← sameLength, Nat.min_self]

/-- Two frames of one length are never a short burst apart. -/
theorem burst_not_encoded (sequenceNumber otherNumber : UInt16)
    (payload otherPayload pattern : Bytes) (start index : Nat)
    (sameLength : (encodeFrame sequenceNumber payload).length = pattern.length)
    (isSet : frameBit pattern index = true)
    (window : ∀ position, frameBit pattern position = true →
      start ≤ position ∧ position < start + 32) :
    xorBytes (encodeFrame sequenceNumber payload) pattern ≠
      encodeFrame otherNumber otherPayload := by
  intro encoded
  have registers := crcRegister_xorBytes (encodeFrame sequenceNumber payload) pattern sameLength
  rw [encoded, crcRegister_encodeFrame, crcRegister_encodeFrame] at registers
  have vanishes : feedBits crcPolynomial 0#32 (messageBits pattern) = 0#32 := by
    calc feedBits crcPolynomial 0#32 (messageBits pattern)
        = crcResidue ^^^ (crcResidue ^^^
            feedBits crcPolynomial 0#32 (messageBits pattern)) := by
          rw [← BitVec.xor_assoc, BitVec.xor_self, BitVec.zero_xor]
      _ = 0#32 := by rw [← registers, BitVec.xor_self]
  refine feedBits_burst_ne_zero crcPolynomial (messageBits pattern) start index
    crcPolynomial_msb ?_ ?_ vanishes
  · rw [messageBits_getD]
    exact isSet
  · intro position set
    rw [messageBits_getD] at set
    exact window position set

/-- **Every burst of at most 32 bits is caught**, header, payload and checksum
alike, and the handler is never invoked. -/
theorem handleIncoming_rejects_burst {State : Type} (sizeType : SizeType)
    (sequenceNumber : UInt16) (payload frame pattern : Bytes) (start : Nat)
    (handler : DataHandler State) (state : State)
    (small : payload.length ≤ kMaxFrameSize)
    (built : IsBuilt sequenceNumber payload frame)
    (sameLength : pattern.length = frame.length)
    (nonZero : ∃ index, frameBit pattern index = true)
    (window : ∀ index, frameBit pattern index = true → start ≤ index ∧ index < start + 32) :
    handleIncoming sizeType (some (xorBytes frame pattern)) (xorBytes frame pattern).length
        (some (recording handler)) (state, []) = (false, state, []) := by
  obtain ⟨index, isSet⟩ := nonZero
  have encoded := (isBuilt_iff sequenceNumber payload frame small).mp built
  subst encoded
  have length := xorBytes_length (encodeFrame sequenceNumber payload) pattern sameLength.symm
  have short : (xorBytes (encodeFrame sequenceNumber payload) pattern).length ≤
      kHeaderSize + kMaxFrameSize + kCrcSize := by
    rw [length, encodeFrame_length]
    omega
  rw [handleIncoming_eq sizeType _ _ (recording handler) (state, []) (Nat.le_refl _) short]
  apply if_neg
  intro accepted
  obtain ⟨otherNumber, otherPayload, _, other⟩ := (validFrame_whole_iff _).mp accepted
  exact burst_not_encoded sequenceNumber otherNumber payload otherPayload pattern start index
    sameLength.symm isSet window other

def burstAcrossChecksum : Bytes := [0, 0, 0, 0, 0, 0, 0, 0, 0x80, 0xFF, 0, 0, 1]

theorem handleIncoming_rejects_burst_across_checksum :
    handleIncoming .bits64 (some (xorBytes (encodeFrame 1 [0x12]) burstAcrossChecksum))
        (xorBytes (encodeFrame 1 [0x12]) burstAcrossChecksum).length
        (some (recording fun _ (_ : Unit) => (true, ()))) ((), []) = (false, (), []) := by
  have window : ∀ index < 8 * burstAcrossChecksum.length,
      frameBit burstAcrossChecksum index = true → 71 ≤ index ∧ index < 71 + 32 := by decide
  exact handleIncoming_rejects_burst .bits64 1 [0x12] (encodeFrame 1 [0x12]) burstAcrossChecksum
    71 _ () (by decide) ((isBuilt_iff 1 [0x12] _ (by decide)).mpr rfl)
    (by rw [encodeFrame_length]; rfl) ⟨71, by decide⟩
    fun index isSet => window index (frameBit_inside _ _ isSet) isSet

end Libcomm
