import Libcomm.Library.LittleEndian
import Libcomm.Library.ReflectedCrc

/-!
# The frame checksum

`generateCrc32LookupTable` and `ComputeCrc32` of the frame transport, and the
register they compute with: the table form is the reflected code with polynomial
`0xEDB88320`, register initialised to all ones and complemented at the end.
The table and the code one bit at a time compute the same checksum.
-/

set_option autoImplicit false

namespace Libcomm

open ReflectedCrc

abbrev Bytes := List UInt8

/-! ## The source's table and loop -/

def crc32PolynomialReversed : UInt32 := 0xEDB88320

/-- One pass of the inner loop of `generateCrc32LookupTable`. -/
def crc32TableStep (crc32Accumulator : UInt32) : UInt32 :=
  if crc32Accumulator &&& 1 ≠ 0 then (crc32Accumulator >>> 1) ^^^ crc32PolynomialReversed
  else crc32Accumulator >>> 1

def generateCrc32LookupTable : Vector UInt32 256 :=
  Vector.ofFn fun byteValue => crc32TableStep^[8] (UInt32.ofNat byteValue.val)

def crc32LookupTable : Vector UInt32 256 := generateCrc32LookupTable

/-- One pass of the loop of `ComputeCrc32`. -/
def crc32Step (crc32Accumulator : UInt32) (byte : UInt8) : UInt32 :=
  let tableLookupIndex := ((crc32Accumulator ^^^ byte.toUInt32) &&& 0xFF).toUInt8
  (crc32Accumulator >>> 8) ^^^
    crc32LookupTable.get ⟨tableLookupIndex.toNat, tableLookupIndex.toNat_lt⟩

def computeCrc32 (data : Bytes) (length : Nat) : UInt32 :=
  (data.take length).foldl crc32Step 0xFFFFFFFF ^^^ 0xFFFFFFFF

/-! ## The register behind the table -/

def crcPolynomial : BitVec 32 := crc32PolynomialReversed.toBitVec

theorem crcPolynomial_msb : crcPolynomial.msb = true := by decide

def crcRegister (message : Bytes) : BitVec 32 :=
  feedBits crcPolynomial (BitVec.allOnes 32) (messageBits message)

theorem and_one_toBitVec (value : UInt32) :
    (value &&& 1).toBitVec = lowBit (value.toBitVec.getLsbD 0) :=
  BitVec.and_one_eq_setWidth_ofBool_getLsbD

theorem and_one_ne_zero_iff (value : UInt32) :
    value &&& 1 ≠ 0 ↔ value.toBitVec.getLsbD 0 = true := by
  rw [Ne, ← UInt32.toBitVec_inj, and_one_toBitVec]
  cases value.toBitVec.getLsbD 0 <;> decide

theorem crc32TableStep_toBitVec (value : UInt32) :
    (crc32TableStep value).toBitVec = shiftStep crcPolynomial value.toBitVec := by
  simp only [crc32TableStep, shiftStep, and_one_ne_zero_iff]
  split <;> rfl

theorem iterate_crc32TableStep_toBitVec (count : Nat) (value : UInt32) :
    (crc32TableStep^[count] value).toBitVec = (shiftStep crcPolynomial)^[count] value.toBitVec := by
  induction count generalizing value with
  | zero => rfl
  | succ count ih => simp only [Function.iterate_succ_apply, ih, crc32TableStep_toBitVec]

theorem crc32LookupTable_get (index : Fin 256) :
    crc32LookupTable.get index = crc32TableStep^[8] (UInt32.ofNat index.val) := by
  change (Vector.ofFn _)[index.val] = _
  rw [Vector.getElem_ofFn]

/-- The byte mask before the cast to `std::uint8_t` changes nothing. -/
theorem masked_toUInt8 (value : UInt32) : (value &&& 0xFF).toUInt8 = value.toUInt8 := by
  have allOnes : (0xFF : UInt32).toUInt8 = -1 := by decide
  rw [UInt32.toUInt8_and, allOnes, UInt8.and_neg_one]

theorem ofNat_toNat_toBitVec (byte : UInt8) :
    (UInt32.ofNat byte.toNat).toBitVec = byte.toBitVec.setWidth 32 := by
  rw [← UInt8.toBitVec_toUInt32, ← UInt8.toNat_toUInt32, UInt32.ofNat_toNat]

theorem crc32Step_toBitVec (register : UInt32) (byte : UInt8) :
    (crc32Step register byte).toBitVec =
      feedBits crcPolynomial register.toBitVec (byteBits byte) := by
  have index : (UInt32.ofNat ((register ^^^ byte.toUInt32) &&& 0xFF).toUInt8.toNat).toBitVec =
      ((register.toBitVec ^^^ byte.toBitVec.setWidth 32).setWidth 8).setWidth 32 := by
    rw [masked_toUInt8, ofNat_toNat_toBitVec]
    rfl
  rw [crc32Step, crc32LookupTable_get, feedBits_byteBits crcPolynomial _ _ (by decide),
    UInt32.toBitVec_xor, iterate_crc32TableStep_toBitVec, index]
  rfl

theorem foldl_crc32Step_toBitVec (message : Bytes) (register : UInt32) :
    (message.foldl crc32Step register).toBitVec =
      feedBits crcPolynomial register.toBitVec (messageBits message) := by
  induction message generalizing register with
  | nil => rfl
  | cons byte rest ih =>
      rw [List.foldl_cons, ih, crc32Step_toBitVec, messageBits_cons, feedBits_append]

theorem computeCrc32_toBitVec (data : Bytes) (length : Nat) :
    (computeCrc32 data length).toBitVec =
      crcRegister (data.take length) ^^^ BitVec.allOnes 32 := by
  rw [computeCrc32, UInt32.toBitVec_xor, foldl_crc32Step_toBitVec]
  rfl

/-! ## One bit at a time -/

/-- A message bit enters at the low end of the register, and the bit that is
shifted out selects whether the polynomial is added. -/
def crc32BitStep (register : UInt32) (bit : Bool) : UInt32 :=
  let entered := register ^^^ (if bit then 1 else 0)
  let shiftedOut := entered &&& 1
  if shiftedOut = 1 then (entered >>> 1) ^^^ crc32PolynomialReversed else entered >>> 1

def bitSerialCrc32 (message : Bytes) : UInt32 :=
  let register := message.foldl
    (fun register byte => (byteBits byte).foldl crc32BitStep register) 0xFFFFFFFF
  register ^^^ 0xFFFFFFFF

theorem and_one_eq_one_iff (value : UInt32) :
    value &&& 1 = 1 ↔ value.toBitVec.getLsbD 0 = true := by
  rw [← UInt32.toBitVec_inj, and_one_toBitVec]
  cases value.toBitVec.getLsbD 0 <;> decide

theorem crc32BitStep_toBitVec (register : UInt32) (bit : Bool) :
    (crc32BitStep register bit).toBitVec = feedBit crcPolynomial register.toBitVec bit := by
  have entered : (register ^^^ (if bit then 1 else 0)).toBitVec =
      register.toBitVec ^^^ lowBit bit := by
    cases bit <;> rfl
  simp only [crc32BitStep, and_one_eq_one_iff, entered, feedBit, shiftStep]
  split
  · rw [← entered]
    rfl
  · rw [← entered]
    rfl

theorem foldl_crc32BitStep_toBitVec (bits : List Bool) (register : UInt32) :
    (bits.foldl crc32BitStep register).toBitVec =
      feedBits crcPolynomial register.toBitVec bits := by
  induction bits generalizing register with
  | nil => rfl
  | cons bit rest ih => rw [List.foldl_cons, ih, crc32BitStep_toBitVec]; rfl

theorem crc32Step_eq_bits (register : UInt32) (byte : UInt8) :
    crc32Step register byte = (byteBits byte).foldl crc32BitStep register := by
  rw [← UInt32.toBitVec_inj, crc32Step_toBitVec, foldl_crc32BitStep_toBitVec]

/-- **The table form computes the bit-serial code**, for every length. -/
theorem computeCrc32_eq_bitSerial (data : Bytes) (length : Nat) :
    computeCrc32 data length = bitSerialCrc32 (data.take length) := by
  have steps : crc32Step = fun register byte => (byteBits byte).foldl crc32BitStep register := by
    funext register byte
    exact crc32Step_eq_bits register byte
  rw [computeCrc32, bitSerialCrc32, steps]

/-- The usual check value, of the digits from one to nine. -/
example : bitSerialCrc32 [0x31, 0x32, 0x33, 0x34, 0x35, 0x36, 0x37, 0x38, 0x39] = 0xCBF43926 := by
  decide +kernel

/-! ## A message followed by its checksum -/

theorem crcRegister_append (front back : Bytes) :
    crcRegister (front ++ back) =
      feedBits crcPolynomial (crcRegister front) (messageBits back) := by
  rw [crcRegister, messageBits_append, feedBits_append]
  rfl

theorem pack_encode (check : UInt32) :
    (pack (messageBits (LittleEndian.encode 4 check.toNat)) : BitVec 32) = check.toBitVec := by
  apply BitVec.eq_of_getLsbD_eq
  intro index inside
  have bit := LittleEndian.encode_testBit 4 check.toNat index
  rw [getLsbD_pack, messageBits_getD]
  simp only [inside, decide_true, Bool.true_and] at bit ⊢
  exact bit

/-- The register left by every message that is followed by its own checksum. -/
def crcResidue : BitVec 32 := (shiftStep crcPolynomial)^[32] (BitVec.allOnes 32)

theorem crcRegister_append_check (message : Bytes) (check : UInt32) :
    crcRegister (message ++ LittleEndian.encode 4 check.toNat) =
      (shiftStep crcPolynomial)^[32] (crcRegister message ^^^ check.toBitVec) := by
  have length : (messageBits (LittleEndian.encode 4 check.toNat)).length = 32 := by
    simp [messageBits_length]
  rw [crcRegister_append, feedBits_eq_iterate crcPolynomial _ _ (by omega), length, pack_encode]

/-- The stored checksum is right exactly when the whole frame leaves the residue. -/
theorem crcRegister_eq_residue_iff (message : Bytes) (check : UInt32) :
    crcRegister (message ++ LittleEndian.encode 4 check.toNat) = crcResidue ↔
      check = computeCrc32 message message.length := by
  rw [crcRegister_append_check, crcResidue,
    (iterate_shiftStep_injective crcPolynomial 32 crcPolynomial_msb).eq_iff,
    ← UInt32.toBitVec_inj, computeCrc32_toBitVec, List.take_length]
  constructor
  · intro equal
    rw [← equal, ← BitVec.xor_assoc, BitVec.xor_self, BitVec.zero_xor]
  · intro equal
    rw [equal, ← BitVec.xor_assoc, BitVec.xor_self, BitVec.zero_xor]

end Libcomm
