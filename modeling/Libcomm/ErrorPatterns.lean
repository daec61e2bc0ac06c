import Libcomm.BurstErrors
import Libcomm.Library.CrcOrder
import Mathlib.Tactic.NormNum.Pow
import Mathlib.Tactic.NormNum.Prime

/-!
# Undetected errors

Which error patterns `HandleIncoming` takes for a frame, exactly.  The register of a
whole frame is at the residue, so what a pattern does to the checksum depends on the
pattern alone: neither the payload nor the sequence number matters.  The checksum is
blind to the multiples of its polynomial and to nothing else, and no two bits of a
frame are far enough apart to make one.
-/

set_option autoImplicit false

namespace Libcomm

open ReflectedCrc

/-! ## Whole frames by their register -/

theorem checksum_iff_residue (bytes : Bytes) {front : Nat} (length : front + 4 = bytes.length) :
    loadUInt32 bytes front = computeCrc32 bytes front ↔ crcRegister bytes = crcResidue := by
  have inside : front ≤ bytes.length := by omega
  have field : (bytes.drop front).length = 4 := by
    rw [List.length_drop]
    omega
  have loaded : LittleEndian.encode 4 (loadUInt32 bytes front).toNat = bytes.drop front := by
    rw [loadUInt32, List.take_of_length_le field.le, encode_loaded _ field]
  have whole :
      bytes.take front ++ LittleEndian.encode 4 (loadUInt32 bytes front).toNat = bytes := by
    rw [loaded, List.take_append_drop]
  have residue := crcRegister_eq_residue_iff (bytes.take front) (loadUInt32 bytes front)
  rw [whole, List.length_take, Nat.min_eq_left inside,
    computeCrc32_take bytes (Nat.le_refl front)] at residue
  exact residue.symm

theorem wholeFrame_iff (bytes : Bytes) :
    (ValidFrame bytes ∧ frameSize bytes = bytes.length) ↔
      bytes.getD 0 0 = kProtocolVersion ∧ bytes.getD 1 0 = FrameType.data.toByte ∧
        announcedSize bytes ≤ kMaxFrameSize ∧ frameSize bytes = bytes.length ∧
        crcRegister bytes = crcResidue := by
  constructor
  · rintro ⟨valid, whole⟩
    exact ⟨valid.version, valid.type, valid.size_le, whole,
      (checksum_iff_residue bytes whole).mp valid.checksum⟩
  · rintro ⟨version, type, size, whole, residue⟩
    exact ⟨⟨version, type, size, whole.le, (checksum_iff_residue bytes whole).mpr residue⟩, whole⟩

/-! ## What a pattern changes -/

def crcRemainder (pattern : Bytes) : BitVec 32 := feedBits crcPolynomial 0#32 (messageBits pattern)

/-- The pattern leaves version, type and announced size alone. -/
def KeepsHeader (pattern : Bytes) : Prop :=
  pattern.getD 0 0 = 0 ∧ pattern.getD 1 0 = 0 ∧ loadUInt32 pattern 4 = 0

instance (pattern : Bytes) : Decidable (KeepsHeader pattern) :=
  inferInstanceAs (Decidable (_ ∧ _ ∧ _))

section Patterns
variable {bytes pattern : Bytes}

theorem getD_xorBytes (sameLength : bytes.length = pattern.length) (index : Nat) :
    (xorBytes bytes pattern).getD index 0 = bytes.getD index 0 ^^^ pattern.getD index 0 := by
  have length := xorBytes_length bytes pattern sameLength
  by_cases inside : index < bytes.length
  · rw [List.getD_eq_getElem _ _ inside, List.getD_eq_getElem _ _ (show index < pattern.length by
      omega), List.getD_eq_getElem _ _ (show index < (xorBytes bytes pattern).length by omega)]
    exact List.getElem_zipWith
  · rw [List.getD_eq_default _ _ (by omega), List.getD_eq_default _ _ (by omega),
      List.getD_eq_default _ _ (by omega), UInt8.xor_self]

theorem loadUInt32_xorBytes (sameLength : bytes.length = pattern.length) (offset : Nat) :
    loadUInt32 (xorBytes bytes pattern) offset =
      loadUInt32 bytes offset ^^^ loadUInt32 pattern offset := by
  have fieldLength :
      ((bytes.drop offset).take 4).length = ((pattern.drop offset).take 4).length := by
    rw [List.length_take, List.length_take, List.length_drop, List.length_drop, sameLength]
  rw [loadUInt32, xorBytes, List.drop_zipWith, List.take_zipWith,
    LittleEndian.decode_xor _ _ fieldLength, UInt32.ofNat_xor]
  rfl

theorem getD_xorBytes_eq_iff (sameLength : bytes.length = pattern.length) (index : Nat) :
    (xorBytes bytes pattern).getD index 0 = bytes.getD index 0 ↔ pattern.getD index 0 = 0 := by
  have cancel := @UInt8.xor_right_inj (pattern.getD index 0) 0 (bytes.getD index 0)
  rw [UInt8.xor_zero] at cancel
  rw [getD_xorBytes sameLength, cancel]

theorem announcedSize_xorBytes_eq_iff (sameLength : bytes.length = pattern.length) :
    announcedSize (xorBytes bytes pattern) = announcedSize bytes ↔ loadUInt32 pattern 4 = 0 := by
  have cancel := @UInt32.xor_right_inj (loadUInt32 pattern 4) 0 (loadUInt32 bytes 4)
  rw [UInt32.xor_zero] at cancel
  rw [announcedSize, announcedSize, UInt32.toNat_inj, loadUInt32_xorBytes sameLength, cancel]

theorem residue_xorBytes_iff (sameLength : bytes.length = pattern.length)
    (residue : crcRegister bytes = crcResidue) :
    crcRegister (xorBytes bytes pattern) = crcResidue ↔ crcRemainder pattern = 0#32 := by
  rw [crcRegister_xorBytes bytes pattern sameLength, residue, ← crcRemainder]
  constructor
  · intro same
    calc crcRemainder pattern = crcResidue ^^^ (crcResidue ^^^ crcRemainder pattern) := by
          rw [← BitVec.xor_assoc, BitVec.xor_self, BitVec.zero_xor]
      _ = 0#32 := by rw [same, BitVec.xor_self]
  · intro zero
    rw [zero, BitVec.xor_zero]

/-- A corrupted frame is a whole frame exactly when the pattern spares the header
and leaves no remainder. -/
theorem wholeFrame_xorBytes_iff (sameLength : bytes.length = pattern.length)
    (valid : ValidFrame bytes) (whole : frameSize bytes = bytes.length) :
    (ValidFrame (xorBytes bytes pattern) ∧
        frameSize (xorBytes bytes pattern) = (xorBytes bytes pattern).length) ↔
      KeepsHeader pattern ∧ crcRemainder pattern = 0#32 := by
  obtain ⟨version, type, size, _, residue⟩ := (wholeFrame_iff bytes).mp ⟨valid, whole⟩
  have length := xorBytes_length bytes pattern sameLength
  have sizes : frameSize (xorBytes bytes pattern) = bytes.length ↔ loadUInt32 pattern 4 = 0 := by
    rw [← announcedSize_xorBytes_eq_iff sameLength, ← whole, frameSize, frameSize]
    omega
  rw [wholeFrame_iff, length, sizes, ← version, ← type, getD_xorBytes_eq_iff sameLength,
    getD_xorBytes_eq_iff sameLength, residue_xorBytes_iff sameLength residue]
  constructor
  · rintro ⟨versionKept, typeKept, _, sizeKept, remainder⟩
    exact ⟨⟨versionKept, typeKept, sizeKept⟩, remainder⟩
  · rintro ⟨⟨versionKept, typeKept, sizeKept⟩, remainder⟩
    have announced := (announcedSize_xorBytes_eq_iff sameLength).mpr sizeKept
    exact ⟨versionKept, typeKept, announced.le.trans size, sizeKept, remainder⟩

end Patterns

/-! ## The receiver -/

/-- **The undetected errors are the multiples of the polynomial** behind an
unharmed header, whatever the frame holds; the handler is then given the corrupted
payload, and in every other case nothing. -/
theorem handleIncoming_corrupted {State : Type} (sizeType : SizeType) (sequenceNumber : UInt16)
    (payload frame pattern : Bytes) (handler : DataHandler State) (state : State)
    (small : payload.length ≤ kMaxFrameSize)
    (built : IsBuilt sequenceNumber payload frame)
    (sameLength : pattern.length = frame.length) :
    handleIncoming sizeType (some (xorBytes frame pattern)) (xorBytes frame pattern).length
        (some (recording handler)) (state, []) =
      if KeepsHeader pattern ∧ crcRemainder pattern = 0#32 then
        recording handler (xorBytes payload ((pattern.drop kHeaderSize).take payload.length))
          (state, [])
      else (false, state, []) := by
  have encoded := (isBuilt_iff sequenceNumber payload frame small).mp built
  subst encoded
  have length := xorBytes_length (encodeFrame sequenceNumber payload) pattern sameLength.symm
  have short : (xorBytes (encodeFrame sequenceNumber payload) pattern).length ≤
      kHeaderSize + kMaxFrameSize + kCrcSize := by
    rw [length, encodeFrame_length]
    omega
  rw [handleIncoming_eq sizeType _ _ (recording handler) (state, []) (Nat.le_refl _) short]
  have accepted := wholeFrame_xorBytes_iff sameLength.symm
    (validFrame_encodeFrame sequenceNumber payload small)
    (frameSize_encodeFrame sequenceNumber payload small)
  by_cases undetected : KeepsHeader pattern ∧ crcRemainder pattern = 0#32
  · have announced := (announcedSize_xorBytes_eq_iff sameLength.symm).mpr undetected.1.2.2
    rw [announcedSize_encodeFrame sequenceNumber payload small] at announced
    have original := framePayload_encodeFrame sequenceNumber payload small
    rw [framePayload, announcedSize_encodeFrame sequenceNumber payload small] at original
    have corrupted : framePayload (xorBytes (encodeFrame sequenceNumber payload) pattern) =
        xorBytes payload ((pattern.drop kHeaderSize).take payload.length) := by
      rw [framePayload, announced, xorBytes, List.drop_zipWith, List.take_zipWith, original]
      rfl
    rw [if_pos (accepted.mpr undetected), if_pos undetected, corrupted]
  · rw [if_neg (mt accepted.mp undetected), if_neg undetected]

/-- The polynomial itself, across payload and checksum. -/
def polynomialPattern : Bytes := [0, 0, 0, 0, 0, 0, 0, 0, 0x41, 0x06, 0x71, 0xDB, 0x01]

theorem handleIncoming_corrupted_by_polynomial :
    handleIncoming .bits64 (some (xorBytes (encodeFrame 1 [0x12]) polynomialPattern))
        (xorBytes (encodeFrame 1 [0x12]) polynomialPattern).length
        (some (recording fun _ (_ : Unit) => (true, ()))) ((), []) = (true, (), [[0x53]]) := by
  have undetected : KeepsHeader polynomialPattern ∧ crcRemainder polynomialPattern = 0#32 := by
    decide +kernel
  have outcome := handleIncoming_corrupted .bits64 1 [0x12] (encodeFrame 1 [0x12])
    polynomialPattern (fun _ (_ : Unit) => (true, ())) () (by decide)
    ((isBuilt_iff 1 [0x12] _ (by decide)).mpr rfl) (by rw [encodeFrame_length]; rfl)
  rw [if_pos undetected] at outcome
  exact outcome

/-! ## Two flipped bits -/

theorem crcPolynomial_power : squared crcPolynomial 16 = 0x83852D0F#32 := by decide +kernel

theorem crcPolynomial_returns : squared crcPolynomial (2 * 16) = squared crcPolynomial 0 := by
  have again : (square crcPolynomial)^[16] 0x83852D0F#32 = squared crcPolynomial 0 := by
    decide +kernel
  rw [Nat.two_mul, squared_add, crcPolynomial_power, again]

theorem crcPolynomial_not_before : squared crcPolynomial 16 ≠ squared crcPolynomial 0 := by
  rw [crcPolynomial_power]
  decide +kernel

/-- Two bits go unnoticed only when at least 65537 positions lie between them. -/
theorem two_bits_far_apart (pattern : Bytes) {low high : Nat} (ordered : low < high)
    (exactly : ∀ index, frameBit pattern index = true ↔ index = low ∨ index = high)
    (vanishes : crcRemainder pattern = 0#32) : 65537 ≤ high - low := by
  have period := isPeriodicPt_of_two_bits crcPolynomial crcPolynomial_msb (by decide)
    (messageBits pattern) ordered
    (fun index => by rw [messageBits_getD]; exact exactly index) vanishes
  have divides := dvd_period crcPolynomial crcPolynomial_msb 16 (by norm_num)
    crcPolynomial_returns crcPolynomial_not_before _ period
  exact Nat.le_of_dvd (by omega) divides

/-- **Every pair of flipped bits is caught**, however far apart the two are. -/
theorem handleIncoming_rejects_two_bits {State : Type} (sizeType : SizeType)
    (sequenceNumber : UInt16) (payload frame pattern : Bytes) (low high : Nat)
    (handler : DataHandler State) (state : State)
    (small : payload.length ≤ kMaxFrameSize)
    (built : IsBuilt sequenceNumber payload frame)
    (sameLength : pattern.length = frame.length)
    (ordered : low < high)
    (exactly : ∀ index, frameBit pattern index = true ↔ index = low ∨ index = high) :
    handleIncoming sizeType (some (xorBytes frame pattern)) (xorBytes frame pattern).length
        (some (recording handler)) (state, []) = (false, state, []) := by
  have encoded := (isBuilt_iff sequenceNumber payload frame small).mp built
  subst encoded
  have length := xorBytes_length (encodeFrame sequenceNumber payload) pattern sameLength.symm
  rw [encodeFrame_length] at length sameLength
  rw [handleIncoming_eq sizeType _ _ (recording handler) (state, []) (Nat.le_refl _) (by omega)]
  apply if_neg
  intro accepted
  have undetected := (wholeFrame_xorBytes_iff (by rw [encodeFrame_length, sameLength])
    (validFrame_encodeFrame sequenceNumber payload small)
    (frameSize_encodeFrame sequenceNumber payload small)).mp accepted
  have apart := two_bits_far_apart pattern ordered exactly undetected.2
  -- a frame has fewer bits than that
  have inside := frameBit_inside pattern high ((exactly high).mpr (.inr rfl))
  simp only [kHeaderSize, kMaxFrameSize, kCrcSize] at small sameLength
  omega

def endBits : Bytes := [0x01, 0, 0, 0, 0, 0, 0, 0, 0, 0, 0, 0, 0x80]

theorem handleIncoming_rejects_end_bits :
    handleIncoming .bits32 (some (xorBytes (encodeFrame 1 [0x12]) endBits))
        (xorBytes (encodeFrame 1 [0x12]) endBits).length
        (some (recording fun _ (_ : Unit) => (true, ()))) ((), []) = (false, (), []) := by
  have exactly : ∀ index < 8 * endBits.length,
      frameBit endBits index = true ↔ index = 0 ∨ index = 103 := by decide
  refine handleIncoming_rejects_two_bits .bits32 1 [0x12] (encodeFrame 1 [0x12]) endBits 0 103 _ ()
    (by decide) ((isBuilt_iff 1 [0x12] _ (by decide)).mpr rfl) (by rw [encodeFrame_length]; rfl)
    (by decide) fun index => ⟨fun isSet => ?_, fun isEnd => ?_⟩
  · exact (exactly index (frameBit_inside _ _ isSet)).mp isSet
  · have inside : index < 8 * endBits.length := by
      simp only [endBits, List.length_cons, List.length_nil]
      omega
    exact (exactly index inside).mpr isEnd

end Libcomm
