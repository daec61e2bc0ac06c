import Mathlib.Data.List.GetD
import Mathlib.Logic.Function.Iterate
import Mathlib.Tactic.Set

/-!
# Reflected cyclic redundancy codes

A reflected code of any width and any polynomial, one message bit at a time,
lowest bit first.  The register map is linear over exclusive or, it is injective
as soon as the polynomial has its top bit, and a block no longer than the
register acts as if it had been added to the register at once.  From these come
the byte-wise table form and the detection of every burst no longer than the
register.
-/

set_option autoImplicit false

namespace ReflectedCrc

/-! ## The register -/

section Register
variable {width : Nat}

/-- One shift: the bit shifted out selects whether the polynomial is added. -/
def shiftStep (polynomial register : BitVec width) : BitVec width :=
  if register.getLsbD 0 then (register >>> 1) ^^^ polynomial else register >>> 1

/-- A single message bit at the low end of the register. -/
def lowBit (bit : Bool) : BitVec width := (BitVec.ofBool bit).setWidth width

def feedBit (polynomial register : BitVec width) (bit : Bool) : BitVec width :=
  shiftStep polynomial (register ^^^ lowBit bit)

def feedBits (polynomial register : BitVec width) (bits : List Bool) : BitVec width :=
  bits.foldl (feedBit polynomial) register

theorem getLsbD_lowBit (bit : Bool) (index : Nat) :
    (lowBit bit : BitVec width).getLsbD index =
      (decide (index < width) && (decide (index = 0) && bit)) := by
  simp [lowBit, BitVec.getLsbD_setWidth, BitVec.getLsbD_ofBool]

@[simp] theorem lowBit_false : (lowBit false : BitVec width) = 0#(width) := by
  apply BitVec.eq_of_getLsbD_eq
  intro index _
  simp [getLsbD_lowBit]

theorem lowBit_xor (left right : Bool) :
    (lowBit (left ^^ right) : BitVec width) = lowBit left ^^^ lowBit right := by
  apply BitVec.eq_of_getLsbD_eq
  intro index _
  simp only [getLsbD_lowBit, BitVec.getLsbD_xor]
  by_cases first : index = 0 <;> cases left <;> cases right <;> simp [first]

theorem xor_cancel_middle (left right common : BitVec width) :
    (left ^^^ common) ^^^ (right ^^^ common) = left ^^^ right := by
  rw [BitVec.xor_comm right common, BitVec.xor_assoc, ← BitVec.xor_assoc common common,
    BitVec.xor_self, BitVec.zero_xor]

/-! ## Linearity -/

theorem shiftStep_xor (polynomial left right : BitVec width) :
    shiftStep polynomial (left ^^^ right) =
      shiftStep polynomial left ^^^ shiftStep polynomial right := by
  simp only [shiftStep, BitVec.getLsbD_xor, BitVec.ushiftRight_xor_distrib]
  cases left.getLsbD 0 <;> cases right.getLsbD 0
  · simp
  · simp [BitVec.xor_assoc]
  · simp only [Bool.xor_false, if_true, Bool.false_eq_true, if_false]
    rw [BitVec.xor_assoc, BitVec.xor_assoc, BitVec.xor_comm polynomial]
  · simpa using (xor_cancel_middle (left >>> 1) (right >>> 1) polynomial).symm

@[simp] theorem shiftStep_zero (polynomial : BitVec width) :
    shiftStep polynomial 0#(width) = 0#(width) := by
  simp [shiftStep]

theorem iterate_shiftStep_xor (polynomial : BitVec width) (count : Nat)
    (left right : BitVec width) :
    (shiftStep polynomial)^[count] (left ^^^ right) =
      (shiftStep polynomial)^[count] left ^^^ (shiftStep polynomial)^[count] right := by
  induction count generalizing left right with
  | zero => rfl
  | succ count ih => simp only [Function.iterate_succ_apply, shiftStep_xor, ih]

theorem feedBits_xor (polynomial : BitVec width) (left right : List Bool)
    (sameLength : left.length = right.length) (first second : BitVec width) :
    feedBits polynomial (first ^^^ second) (List.zipWith xor left right) =
      feedBits polynomial first left ^^^ feedBits polynomial second right := by
  induction left generalizing right first second with
  | nil =>
      cases right with
      | nil => rfl
      | cons bit rest => simp at sameLength
  | cons leftBit leftRest ih =>
      cases right with
      | nil => simp at sameLength
      | cons rightBit rightRest =>
          have restLength : leftRest.length = rightRest.length := by simpa using sameLength
          have headStep :
              feedBit polynomial (first ^^^ second) (leftBit ^^ rightBit) =
                feedBit polynomial first leftBit ^^^ feedBit polynomial second rightBit := by
            simp only [feedBit, lowBit_xor, ← shiftStep_xor]
            congr 1
            ac_rfl
          simp only [feedBits, List.zipWith_cons_cons, List.foldl_cons, headStep]
          exact ih rightRest restLength _ _

theorem feedBits_append (polynomial register : BitVec width) (front back : List Bool) :
    feedBits polynomial register (front ++ back) =
      feedBits polynomial (feedBits polynomial register front) back := by
  simp [feedBits]

theorem feedBits_replicate_false (polynomial register : BitVec width) (count : Nat) :
    feedBits polynomial register (List.replicate count false) =
      (shiftStep polynomial)^[count] register := by
  induction count generalizing register with
  | zero => rfl
  | succ count ih =>
      simp only [feedBits, List.replicate_succ, List.foldl_cons] at ih ⊢
      rw [ih, Function.iterate_succ_apply]
      simp [feedBit]

/-! ## Injectivity -/

theorem shiftStep_eq_zero (polynomial register : BitVec width)
    (topBit : polynomial.msb = true) (vanishes : shiftStep polynomial register = 0#(width)) :
    register = 0#(width) := by
  have widthPos : 0 < width := by
    cases width with
    | zero => simp [BitVec.msb] at topBit
    | succ => omega
  have topOfPolynomial : polynomial.getLsbD (width - 1) = true := by
    simpa [BitVec.msb_eq_getLsbD_last] using topBit
  -- the top bit of the result tells whether the polynomial was added
  have lowClear : register.getLsbD 0 = false := by
    by_contra lowSet
    have lowSet : register.getLsbD 0 = true := by simpa using lowSet
    have top := congrArg (fun value => value.getLsbD (width - 1)) vanishes
    simp only [shiftStep, lowSet, if_true, BitVec.getLsbD_xor, BitVec.getLsbD_ushiftRight,
      topOfPolynomial, BitVec.getLsbD_zero] at top
    rw [BitVec.getLsbD_of_ge register (1 + (width - 1)) (by omega)] at top
    simp at top
  have shifted : register >>> 1 = 0#(width) := by
    simpa [shiftStep, lowClear] using vanishes
  apply BitVec.eq_of_getLsbD_eq
  intro index _
  cases index with
  | zero => simpa using lowClear
  | succ index =>
      have bit := congrArg (fun value => value.getLsbD index) shifted
      simpa [BitVec.getLsbD_ushiftRight, Nat.add_comm] using bit

theorem iterate_shiftStep_eq_zero (polynomial register : BitVec width) (count : Nat)
    (topBit : polynomial.msb = true)
    (vanishes : (shiftStep polynomial)^[count] register = 0#(width)) : register = 0#(width) := by
  induction count generalizing register with
  | zero => exact vanishes
  | succ count ih =>
      rw [Function.iterate_succ_apply] at vanishes
      exact shiftStep_eq_zero polynomial register topBit (ih _ vanishes)

theorem iterate_shiftStep_injective (polynomial : BitVec width) (count : Nat)
    (topBit : polynomial.msb = true) :
    Function.Injective (shiftStep polynomial)^[count] := by
  intro left right same
  have difference : (shiftStep polynomial)^[count] (left ^^^ right) = 0#(width) := by
    rw [iterate_shiftStep_xor, same, BitVec.xor_self]
  have equal := iterate_shiftStep_eq_zero polynomial _ count topBit difference
  calc left = (left ^^^ right) ^^^ right := by
        rw [BitVec.xor_assoc, BitVec.xor_self, BitVec.xor_zero]
    _ = right := by rw [equal, BitVec.zero_xor]

/-! ## Blocks no longer than the register -/

def pack : List Bool → BitVec width
  | [] => 0#(width)
  | bit :: rest => lowBit bit ^^^ (pack rest <<< 1)

theorem getLsbD_pack (bits : List Bool) (index : Nat) :
    (pack bits : BitVec width).getLsbD index =
      (decide (index < width) && bits.getD index false) := by
  induction bits generalizing index with
  | nil => simp [pack]
  | cons bit rest ih =>
      rw [pack, BitVec.getLsbD_xor, getLsbD_lowBit, BitVec.getLsbD_shiftLeft]
      cases index with
      | zero => simp
      | succ index =>
          rw [ih]
          by_cases inside : index + 1 < width
          · simp [inside, show index < width by omega]
          · simp [inside]

theorem shiftStep_shiftLeft (polynomial register : BitVec width)
    (topClear : register.getLsbD (width - 1) = false) :
    shiftStep polynomial (register <<< 1) = register := by
  have lowClear : (register <<< 1).getLsbD 0 = false := by simp
  simp only [shiftStep, lowClear, Bool.false_eq_true, if_false]
  apply BitVec.eq_of_getLsbD_eq
  intro index indexLt
  rw [BitVec.getLsbD_ushiftRight, BitVec.getLsbD_shiftLeft]
  by_cases inside : 1 + index < width
  · simp [inside]
  · have isTop : index = width - 1 := by omega
    simp [isTop, topClear]

/-- A block no longer than the register can be added to the register at once. -/
theorem feedBits_eq_iterate (polynomial register : BitVec width) (bits : List Bool)
    (short : bits.length ≤ width) :
    feedBits polynomial register bits =
      (shiftStep polynomial)^[bits.length] (register ^^^ pack bits) := by
  induction bits generalizing register with
  | nil => simp [feedBits, pack]
  | cons bit rest ih =>
      have restShort : rest.length ≤ width := by
        simp only [List.length_cons] at short
        omega
      have topClear : (pack rest : BitVec width).getLsbD (width - 1) = false := by
        rw [getLsbD_pack, List.getD_eq_default]
        · simp
        · simp only [List.length_cons] at short
          omega
      have headStep :
          shiftStep polynomial (register ^^^ pack (bit :: rest)) =
            feedBit polynomial register bit ^^^ pack rest := by
        rw [pack, ← BitVec.xor_assoc, shiftStep_xor,
          shiftStep_shiftLeft polynomial (pack rest) topClear]
        rfl
      rw [List.length_cons, Function.iterate_succ_apply, headStep, ← ih _ restShort]
      rfl

/-! ## Burst detection -/

theorem getD_take (bits : List Bool) (count position : Nat) :
    (bits.take count).getD position false =
      (decide (position < count) && bits.getD position false) := by
  simp only [List.getD_eq_getElem?_getD, List.getElem?_take]
  by_cases inside : position < count <;> simp [inside]

theorem getD_drop (bits : List Bool) (count position : Nat) :
    (bits.drop count).getD position false = bits.getD (count + position) false := by
  simp only [List.getD_eq_getElem?_getD, List.getElem?_drop]

theorem eq_replicate_false (bits : List Bool)
    (clear : ∀ position, bits.getD position false = false) :
    bits = List.replicate bits.length false := by
  apply List.ext_getElem (by simp)
  intro position inside _
  have bit := clear position
  rw [List.getD_eq_getElem _ _ inside] at bit
  rw [bit, List.getElem_replicate]

theorem eq_window (bits : List Bool) (start size : Nat)
    (window : ∀ position, bits.getD position false = true →
      start ≤ position ∧ position < start + size) :
    ∃ leading trailing, bits = List.replicate leading false ++
      ((bits.drop start).take size ++ List.replicate trailing false) := by
  have outside : ∀ position, position < start ∨ start + size ≤ position →
      bits.getD position false = false := by
    intro position beyond
    by_contra isSet
    have := window position (by simpa using isSet)
    omega
  have front := eq_replicate_false (bits.take start) (by
    intro position
    rw [getD_take]
    by_cases before : position < start
    · simp only [before, outside position (Or.inl before), decide_true, Bool.and_false]
    · simp [before])
  have back := eq_replicate_false ((bits.drop start).drop size) (by
    intro position
    rw [getD_drop, getD_drop]
    exact outside _ (Or.inr (by omega)))
  refine ⟨(bits.take start).length, ((bits.drop start).drop size).length, ?_⟩
  rw [← front, ← back, List.take_append_drop, List.take_append_drop]

/-- A non-zero pattern whose set bits lie within `width` consecutive positions
never leaves the zero register at zero, however long the pattern is. -/
theorem feedBits_burst_ne_zero (polynomial : BitVec width) (bits : List Bool)
    (start index : Nat) (topBit : polynomial.msb = true)
    (isSet : bits.getD index false = true)
    (window : ∀ position, bits.getD position false = true →
      start ≤ position ∧ position < start + width) :
    feedBits polynomial 0#(width) bits ≠ 0#(width) := by
  intro vanishes
  obtain ⟨startLe, ltEnd⟩ := window index isSet
  obtain ⟨leading, trailing, split⟩ := eq_window bits start width window
  have blockShort : ((bits.drop start).take width).length ≤ width := List.length_take_le _ _
  -- only the window can move the register away from zero
  rw [split, feedBits_append, feedBits_append, feedBits_replicate_false,
    feedBits_replicate_false, Function.iterate_fixed (shiftStep_zero polynomial)] at vanishes
  have atBlock := iterate_shiftStep_eq_zero polynomial _ _ topBit vanishes
  rw [feedBits_eq_iterate polynomial _ _ blockShort, BitVec.zero_xor] at atBlock
  have packed := iterate_shiftStep_eq_zero polynomial _ _ topBit atBlock
  have bit := congrArg (fun value => value.getLsbD (index - start)) packed
  have position : start + (index - start) = index := by omega
  simp only [getLsbD_pack, getD_take, getD_drop, position, isSet, BitVec.getLsbD_zero] at bit
  simp at bit
  omega

/-! ## Table form -/

theorem iterate_shiftStep_of_low_clear (polynomial register : BitVec width) (count : Nat)
    (lowClear : ∀ index, index < count → register.getLsbD index = false) :
    (shiftStep polynomial)^[count] register = register >>> count := by
  induction count with
  | zero => simp
  | succ count ih =>
      rw [Function.iterate_succ_apply', ih (fun index bound => lowClear index (by omega))]
      have bit : (register >>> count).getLsbD 0 = false := by
        simpa using lowClear count (by omega)
      simp only [shiftStep, bit, Bool.false_eq_true, if_false, BitVec.shiftRight_add]

/-- Several shifts at once: the low bits select a correction, the others pass
through unchanged. -/
theorem iterate_shiftStep_split (polynomial register : BitVec width) (count : Nat) :
    (shiftStep polynomial)^[count] register =
      (register >>> count) ^^^
        (shiftStep polynomial)^[count] ((register.setWidth count).setWidth width) := by
  set low : BitVec width := (register.setWidth count).setWidth width with lowDef
  have lowBits : ∀ index, low.getLsbD index =
      (decide (index < count) && register.getLsbD index) := by
    intro index
    rw [lowDef, BitVec.getLsbD_setWidth, BitVec.getLsbD_setWidth]
    by_cases inside : index < width
    · simp [inside]
    · simp [inside, BitVec.getLsbD_of_ge register index (by omega)]
  have highClear : ∀ index, index < count → (register ^^^ low).getLsbD index = false := by
    intro index inside
    simp [lowBits, inside]
  have highPart : (register ^^^ low) >>> count = register >>> count := by
    apply BitVec.eq_of_getLsbD_eq
    intro index _
    simp [lowBits, show ¬ count + index < count by omega]
  calc (shiftStep polynomial)^[count] register
      = (shiftStep polynomial)^[count] ((register ^^^ low) ^^^ low) := by
        rw [BitVec.xor_assoc, BitVec.xor_self, BitVec.xor_zero]
    _ = (register >>> count) ^^^ (shiftStep polynomial)^[count] low := by
        rw [iterate_shiftStep_xor, iterate_shiftStep_of_low_clear polynomial _ count highClear,
          highPart]

end Register

/-! ## Bytes -/

def byteBits (byte : UInt8) : List Bool := List.ofFn fun index : Fin 8 => byte.toBitVec[index]

def messageBits (message : List UInt8) : List Bool := message.flatMap byteBits

@[simp] theorem byteBits_length (byte : UInt8) : (byteBits byte).length = 8 := by
  simp [byteBits]

@[simp] theorem messageBits_nil : messageBits [] = [] := rfl

@[simp] theorem messageBits_cons (byte : UInt8) (rest : List UInt8) :
    messageBits (byte :: rest) = byteBits byte ++ messageBits rest := rfl

@[simp] theorem messageBits_append (front back : List UInt8) :
    messageBits (front ++ back) = messageBits front ++ messageBits back := by
  simp [messageBits]

theorem messageBits_length (message : List UInt8) :
    (messageBits message).length = 8 * message.length := by
  induction message with
  | nil => rfl
  | cons byte rest ih => simp [ih]; omega

theorem byteBits_getD (byte : UInt8) (index : Nat) :
    (byteBits byte).getD index false = byte.toBitVec.getLsbD index := by
  by_cases inside : index < 8
  · rw [List.getD_eq_getElem _ _ (by simpa using inside)]
    simp only [byteBits, List.getElem_ofFn]
    exact (BitVec.getLsbD_eq_getElem inside).symm
  · rw [List.getD_eq_default _ _ (by simpa using inside), BitVec.getLsbD_of_ge _ _ (by omega)]

theorem messageBits_getD (message : List UInt8) (index : Nat) :
    (messageBits message).getD index false =
      (message.getD (index / 8) 0).toBitVec.getLsbD (index % 8) := by
  induction message generalizing index with
  | nil => simp
  | cons byte rest ih =>
      rw [messageBits_cons]
      by_cases inside : index < 8
      · rw [List.getD_append _ _ _ _ (by simpa using inside), byteBits_getD,
          Nat.div_eq_of_lt inside, Nat.mod_eq_of_lt inside]
        rfl
      · have quotient : index / 8 = (index - 8) / 8 + 1 := by omega
        have remainder : index % 8 = (index - 8) % 8 := by omega
        rw [List.getD_append_right _ _ _ _ (by simp; omega), byteBits_length, ih, quotient,
          remainder]
        rfl

theorem byteBits_xor (left right : UInt8) :
    byteBits (left ^^^ right) = List.zipWith xor (byteBits left) (byteBits right) := by
  apply List.ext_getElem (by simp)
  intro index _ _
  simp [byteBits]

theorem messageBits_xor (left right : List UInt8) (sameLength : left.length = right.length) :
    messageBits (List.zipWith (· ^^^ ·) left right) =
      List.zipWith xor (messageBits left) (messageBits right) := by
  induction left generalizing right with
  | nil => simp
  | cons leftByte leftRest ih =>
      cases right with
      | nil => simp at sameLength
      | cons rightByte rightRest =>
          have restLength : leftRest.length = rightRest.length := by simpa using sameLength
          simp only [List.zipWith_cons_cons, messageBits_cons, byteBits_xor, ih _ restLength]
          rw [List.zipWith_append (by simp)]

theorem pack_byteBits {width : Nat} (byte : UInt8) :
    (pack (byteBits byte) : BitVec width) = byte.toBitVec.setWidth width := by
  apply BitVec.eq_of_getLsbD_eq
  intro index inside
  rw [getLsbD_pack, byteBits_getD, BitVec.getLsbD_setWidth]

/-- **One byte by table lookup**: feeding a byte bit by bit moves the register
down by eight and adds the entry of its low byte. -/
theorem feedBits_byteBits {width : Nat} (polynomial register : BitVec width) (byte : UInt8)
    (wide : 8 ≤ width) :
    feedBits polynomial register (byteBits byte) =
      (register >>> 8) ^^^
        (shiftStep polynomial)^[8]
          (((register ^^^ byte.toBitVec.setWidth width).setWidth 8).setWidth width) := by
  have byteGone : (byte.toBitVec.setWidth width : BitVec width) >>> 8 = 0#(width) := by
    apply BitVec.eq_of_getLsbD_eq
    intro index _
    rw [BitVec.getLsbD_ushiftRight, BitVec.getLsbD_setWidth,
      BitVec.getLsbD_of_ge byte.toBitVec (8 + index) (by omega)]
    simp
  rw [feedBits_eq_iterate polynomial register _ (by simpa using wide), byteBits_length,
    pack_byteBits, iterate_shiftStep_split, BitVec.ushiftRight_xor_distrib, byteGone,
    BitVec.xor_zero]

end ReflectedCrc
