import Mathlib.Algebra.Group.Nat.Defs

/-!
# Little-endian byte strings

Fixed-width little-endian encoding of natural numbers.  A count of bytes and
the number below the matching power of 256 determine each other.
-/

set_option autoImplicit false

namespace LittleEndian

/-- The lowest `count` bytes of a number, lowest first. -/
def encode : Nat → Nat → List UInt8
  | 0, _ => []
  | count + 1, value => UInt8.ofNat value :: encode count (value / 256)

def decode : List UInt8 → Nat
  | [] => 0
  | byte :: rest => byte.toNat + 256 * decode rest

@[simp] theorem encode_length (count value : Nat) : (encode count value).length = count := by
  induction count generalizing value with
  | zero => rfl
  | succ count ih => simp [encode, ih]

theorem decode_lt (bytes : List UInt8) : decode bytes < 256 ^ bytes.length := by
  induction bytes with
  | nil => simp [decode]
  | cons byte rest ih =>
      have byteBound : byte.toNat < 256 := byte.toNat_lt
      simp only [decode, List.length_cons, Nat.pow_succ]
      omega

/-- Decoding keeps exactly the part of the number that fits. -/
theorem decode_encode (count value : Nat) :
    decode (encode count value) = value % 256 ^ count := by
  induction count generalizing value with
  | zero => simp [encode, decode, Nat.mod_one]
  | succ count ih =>
      have byte : (UInt8.ofNat value).toNat = value % 256 := UInt8.toNat_ofNat'
      rw [encode, decode, ih, byte, Nat.pow_succ, Nat.mul_comm (256 ^ count)]
      exact Nat.mod_mul.symm

theorem decode_encode_of_lt (count value : Nat) (fits : value < 256 ^ count) :
    decode (encode count value) = value := by
  rw [decode_encode, Nat.mod_eq_of_lt fits]

theorem encode_decode (bytes : List UInt8) : encode bytes.length (decode bytes) = bytes := by
  induction bytes with
  | nil => rfl
  | cons byte rest ih =>
      have byteBound : byte.toNat < 256 := byte.toNat_lt
      have quotient : (byte.toNat + 256 * decode rest) / 256 = decode rest := by omega
      rw [List.length_cons, decode, encode, quotient, ih]
      congr 1
      apply UInt8.toNat_inj.mp
      rw [UInt8.toNat_ofNat']
      omega

theorem encode_decode_of_length (bytes : List UInt8) {count : Nat}
    (length : bytes.length = count) : encode count (decode bytes) = bytes := by
  rw [← length, encode_decode]

theorem decode_xor (left right : List UInt8) (sameLength : left.length = right.length) :
    decode (List.zipWith (· ^^^ ·) left right) = decode left ^^^ decode right := by
  induction left generalizing right with
  | nil =>
      cases right with
      | nil => rfl
      | cons byte rest => simp at sameLength
  | cons leftByte leftRest ih =>
      cases right with
      | nil => simp at sameLength
      | cons rightByte rightRest =>
          have restLength : leftRest.length = rightRest.length := by simpa using sameLength
          have leftBound : leftByte.toNat < 2 ^ 8 := leftByte.toNat_lt
          have rightBound : rightByte.toNat < 2 ^ 8 := rightByte.toNat_lt
          rw [List.zipWith_cons_cons, decode, decode, decode, ih _ restLength, UInt8.toNat_xor]
          apply Nat.eq_of_testBit_eq
          intro index
          have base : 256 = 2 ^ 8 := rfl
          simp only [base, Nat.add_comm _ (2 ^ 8 * _), Nat.testBit_two_pow_mul_add _ leftBound,
            Nat.testBit_two_pow_mul_add _ rightBound, Nat.testBit_xor,
            Nat.testBit_two_pow_mul_add _ (Nat.xor_lt_two_pow leftBound rightBound)]
          split <;> rfl

theorem encode_testBit (count value index : Nat) :
    ((encode count value).getD (index / 8) 0).toNat.testBit (index % 8) =
      (decide (index < 8 * count) && value.testBit index) := by
  induction count generalizing value index with
  | zero => simp [encode]
  | succ count ih =>
      by_cases inside : index < 8
      · have byte : (UInt8.ofNat value).toNat = value % 2 ^ 8 := UInt8.toNat_ofNat'
        rw [Nat.div_eq_of_lt inside, Nat.mod_eq_of_lt inside, encode, List.getD_cons_zero, byte,
          Nat.testBit_mod_two_pow]
        simp [inside, show index < 8 * (count + 1) by omega]
      · have quotient : index / 8 = (index - 8) / 8 + 1 := by omega
        have remainder : index % 8 = (index - 8) % 8 := by omega
        have shifted : (value / 256).testBit (index - 8) = value.testBit index := by
          rw [show 256 = 2 ^ 8 by rfl, Nat.testBit_div_two_pow]
          congr 1
          omega
        rw [encode, quotient, remainder, List.getD_cons_succ, ih, shifted]
        congr 1
        simp only [decide_eq_decide]
        omega

end LittleEndian
