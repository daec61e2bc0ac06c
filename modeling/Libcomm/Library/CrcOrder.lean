import Libcomm.Library.ReflectedCrc
import Mathlib.Data.Nat.Prime.Basic
import Mathlib.Dynamics.PeriodicPts.Defs

/-!
# The order of a reflected code

One shift of the register multiplies by the unknown modulo the polynomial, and two
set bits cancel each other exactly when their distance is a period of that map.
Periods are bounded from below without enumerating them: the register after `2 ^ k`
shifts is reached by `k` squarings, and the return after `2 ^ (2 k)` but not after
`2 ^ k` shifts leaves only multiples of a prime `2 ^ k + 1`.
-/

set_option autoImplicit false

namespace ReflectedCrc

variable {width : Nat}

/-! ## Multiplication -/

/-- The register that stands for one: only the top bit is set. -/
def one : BitVec width := BitVec.twoPow width (width - 1)

/-- Horner's rule over the lowest bits of the left factor, highest power first. -/
def timesUpTo (polynomial left right : BitVec width) : Nat → BitVec width
  | 0 => 0#(width)
  | count + 1 =>
      shiftStep polynomial (timesUpTo polynomial left right count) ^^^
        if left.getLsbD count then right else 0#(width)

def times (polynomial left right : BitVec width) : BitVec width :=
  timesUpTo polynomial left right width

theorem timesUpTo_shiftStep (polynomial left right : BitVec width) (count : Nat) :
    timesUpTo polynomial left (shiftStep polynomial right) count =
      shiftStep polynomial (timesUpTo polynomial left right count) := by
  induction count with
  | zero => exact (shiftStep_zero polynomial).symm
  | succ count ih =>
      rw [timesUpTo, timesUpTo, shiftStep_xor, ih]
      split
      · rfl
      · rw [shiftStep_zero]

theorem times_iterate (polynomial left right : BitVec width) (count : Nat) :
    times polynomial left ((shiftStep polynomial)^[count] right) =
      (shiftStep polynomial)^[count] (times polynomial left right) := by
  induction count with
  | zero => rfl
  | succ count ih =>
      rw [Function.iterate_succ_apply', Function.iterate_succ_apply', ← ih]
      exact timesUpTo_shiftStep polynomial left _ width

theorem getLsbD_one (index : Nat) :
    (one : BitVec width).getLsbD index =
      (decide (index < width) && decide (index = width - 1)) := by
  rw [one, BitVec.getLsbD_twoPow]
  by_cases top : index = width - 1
  · subst top
    simp only [decide_true, Bool.and_true]
  · simp [top, Ne.symm top]

/-- Against one, the bits of the left factor come in at the top and move down. -/
theorem getLsbD_timesUpTo_one (polynomial left : BitVec width) (count : Nat)
    (inside : count ≤ width) (index : Nat) :
    (timesUpTo polynomial left one count).getLsbD index =
      if index < width ∧ width ≤ index + count then left.getLsbD (index + count - width)
      else false := by
  induction count generalizing index with
  | zero =>
      rw [if_neg (by omega)]
      exact BitVec.getLsbD_zero
  | succ count ih =>
      have before := ih (by omega)
      have lowClear : (timesUpTo polynomial left one count).getLsbD 0 = false := by
        rw [before, if_neg (by omega)]
      have entered :
          (if left.getLsbD count then (one : BitVec width) else 0#(width)).getLsbD index =
          (decide (index < width) && decide (index = width - 1) && left.getLsbD count) := by
        split
        · rename_i isSet
          rw [getLsbD_one, isSet, Bool.and_true]
        · rename_i clear
          rw [BitVec.getLsbD_zero, Bool.eq_false_of_not_eq_true clear, Bool.and_false]
      rw [timesUpTo, shiftStep, lowClear, if_neg Bool.false_ne_true, BitVec.getLsbD_xor,
        BitVec.getLsbD_ushiftRight, before, entered]
      by_cases top : index = width - 1
      · -- nothing has been at the top before
        have position : index + (count + 1) - width = count := by omega
        have bound : index < width := by omega
        rw [if_neg (by omega), if_pos (by omega), position, Bool.false_xor, decide_eq_true bound,
          decide_eq_true top, Bool.true_and, Bool.true_and]
      · have position : 1 + index + count - width = index + (count + 1) - width := by omega
        rw [position]
        simp only [top, decide_false, Bool.and_false, Bool.false_and, Bool.xor_false]
        by_cases reached : index < width ∧ width ≤ index + (count + 1)
        · rw [if_pos (by omega), if_pos reached]
        · rw [if_neg (by omega), if_neg reached]

theorem times_one (polynomial left : BitVec width) : times polynomial left one = left := by
  apply BitVec.eq_of_getLsbD_eq
  intro index inside
  rw [times, getLsbD_timesUpTo_one polynomial left width (Nat.le_refl _), if_pos (by omega),
    Nat.add_sub_cancel]

/-- Shifting is multiplication by what the shifts make of one. -/
theorem iterate_eq_times (polynomial register : BitVec width) (count : Nat) :
    (shiftStep polynomial)^[count] register =
      times polynomial register ((shiftStep polynomial)^[count] one) := by
  rw [times_iterate, times_one]

/-! ## Repeated squaring -/

def square (polynomial register : BitVec width) : BitVec width :=
  times polynomial register register

def squared (polynomial : BitVec width) (exponent : Nat) : BitVec width :=
  (square polynomial)^[exponent] (shiftStep polynomial one)

theorem squared_add (polynomial : BitVec width) (more exponent : Nat) :
    squared polynomial (more + exponent) =
      (square polynomial)^[more] (squared polynomial exponent) :=
  Function.iterate_add_apply _ more exponent _

theorem squared_eq_iterate (polynomial : BitVec width) (exponent : Nat) :
    squared polynomial exponent = (shiftStep polynomial)^[2 ^ exponent] one := by
  induction exponent with
  | zero => rfl
  | succ exponent ih =>
      calc squared polynomial (exponent + 1)
          = square polynomial (squared polynomial exponent) := Function.iterate_succ_apply' _ _ _
        _ = (shiftStep polynomial)^[2 ^ exponent] ((shiftStep polynomial)^[2 ^ exponent] one) := by
            rw [iterate_eq_times polynomial _ (2 ^ exponent), ← ih, square]
        _ = (shiftStep polynomial)^[2 ^ (exponent + 1)] one := by
            rw [← Function.iterate_add_apply, Nat.pow_succ, Nat.mul_two]

/-- One comes back after one shift less exactly when the powers agree. -/
theorem isPeriodicPt_pred_iff (polynomial : BitVec width) (topBit : polynomial.msb = true)
    (exponent : Nat) :
    Function.IsPeriodicPt (shiftStep polynomial) (2 ^ exponent - 1) one ↔
      squared polynomial exponent = squared polynomial 0 := by
  have succ : 2 ^ exponent = (2 ^ exponent - 1) + 1 :=
    (Nat.sub_add_cancel Nat.one_le_two_pow).symm
  rw [squared_eq_iterate, succ, Function.iterate_succ_apply', Nat.add_sub_cancel]
  exact (iterate_shiftStep_injective polynomial 1 topBit).eq_iff.symm

/-! ## Two set bits -/

/-- **Periods are long**: when the powers agree at `2 k` but not at `k`, the prime
`2 ^ k + 1` divides every period of one. -/
theorem dvd_period (polynomial : BitVec width) (topBit : polynomial.msb = true) (half : Nat)
    (prime : (2 ^ half + 1).Prime)
    (returns : squared polynomial (2 * half) = squared polynomial 0)
    (notBefore : squared polynomial half ≠ squared polynomial 0) (period : Nat)
    (periodic : Function.IsPeriodicPt (shiftStep polynomial) period one) :
    2 ^ half + 1 ∣ period := by
  have product : 2 ^ (2 * half) - 1 = (2 ^ half + 1) * (2 ^ half - 1) := by
    rw [Nat.mul_comm 2 half, Nat.pow_mul, ← Nat.sq_sub_sq, Nat.one_pow]
  have whole := ((isPeriodicPt_pred_iff polynomial topBit (2 * half)).mpr returns).minimalPeriod_dvd
  rw [product] at whole
  refine Nat.dvd_trans ?_ periodic.minimalPeriod_dvd
  by_contra apart
  have coprime := ((Nat.Prime.coprime_iff_not_dvd prime).mpr apart).symm
  have divides := coprime.dvd_of_dvd_mul_left whole
  exact notBefore ((isPeriodicPt_pred_iff polynomial topBit half).mp
    (Function.isPeriodicPt_iff_minimalPeriod_dvd.mpr divides))

theorem lowBit_true_eq_iterate (polynomial : BitVec width) (positive : 0 < width) :
    lowBit true = (shiftStep polynomial)^[width - 1] one := by
  rw [iterate_shiftStep_of_low_clear]
  · apply BitVec.eq_of_getLsbD_eq
    intro index inside
    rw [getLsbD_lowBit, BitVec.getLsbD_ushiftRight, getLsbD_one]
    by_cases first : index = 0
    · simp [first, positive]
    · have beyond : ¬ width - 1 + index < width := by omega
      simp [first, beyond]
  · intro index below
    rw [getLsbD_one, decide_eq_false (show index ≠ width - 1 by omega), Bool.and_false]

theorem isPeriodicPt_of_lowBit (polynomial : BitVec width) (topBit : polynomial.msb = true)
    (positive : 0 < width) (period : Nat)
    (back : (shiftStep polynomial)^[period] (lowBit true) = lowBit true) :
    Function.IsPeriodicPt (shiftStep polynomial) period one := by
  rw [lowBit_true_eq_iterate polynomial positive, ← Function.iterate_add_apply, Nat.add_comm,
    Function.iterate_add_apply] at back
  exact iterate_shiftStep_injective polynomial (width - 1) topBit back

theorem eq_leading (bits : List Bool) (index : Nat) (isSet : bits.getD index false = true)
    (first : ∀ position < index, bits.getD position false = false) :
    bits = List.replicate index false ++ true :: bits.drop (index + 1) := by
  have inside : index < bits.length := by
    by_contra outside
    rw [List.getD_eq_default _ _ (by omega)] at isSet
    exact absurd isSet Bool.false_ne_true
  have front := eq_replicate_false (bits.take index) (by
    intro position
    rw [getD_take]
    by_cases before : position < index
    · rw [first position before, Bool.and_false]
    · simp [before])
  rw [List.length_take, Nat.min_eq_left inside.le] at front
  have bit : bits[index] = true := by rw [← List.getD_eq_getElem _ false inside, isSet]
  calc bits = bits.take index ++ bits.drop index := (List.take_append_drop index bits).symm
    _ = List.replicate index false ++ true :: bits.drop (index + 1) := by
        rw [front, List.drop_eq_getElem_cons inside, bit]

/-- **Two set bits are seen** unless their distance is a period of one, however long
the pattern is. -/
theorem isPeriodicPt_of_two_bits (polynomial : BitVec width) (topBit : polynomial.msb = true)
    (positive : 0 < width) (bits : List Bool) {low high : Nat} (ordered : low < high)
    (exactly : ∀ index, bits.getD index false = true ↔ index = low ∨ index = high)
    (vanishes : feedBits polynomial 0#(width) bits = 0#(width)) :
    Function.IsPeriodicPt (shiftStep polynomial) (high - low) one := by
  have clear : ∀ index, index ≠ low → index ≠ high → bits.getD index false = false := by
    intro index notLow notHigh
    apply Bool.eq_false_of_not_eq_true
    rw [exactly]
    omega
  have front := eq_leading bits low ((exactly low).mpr (.inl rfl))
    fun index before => clear index (by omega) (by omega)
  have middle := eq_leading (bits.drop (low + 1)) (high - (low + 1))
    (by rw [getD_drop, exactly]; omega)
    fun index before => by rw [getD_drop, clear _ (by omega) (by omega)]
  have back := eq_replicate_false ((bits.drop (low + 1)).drop (high - (low + 1) + 1)) (by
    intro index
    rw [getD_drop, getD_drop, clear _ (by omega) (by omega)])
  rw [front, middle, back, feedBits_append, feedBits_replicate_false,
    Function.iterate_fixed (shiftStep_zero polynomial)] at vanishes
  change feedBits polynomial (shiftStep polynomial (0#(width) ^^^ lowBit true)) _ = 0#(width)
    at vanishes
  rw [feedBits_append, feedBits_replicate_false, BitVec.zero_xor,
    ← Function.iterate_succ_apply] at vanishes
  change feedBits polynomial (shiftStep polynomial (_ ^^^ lowBit true)) _ = 0#(width) at vanishes
  rw [feedBits_replicate_false] at vanishes
  -- the register meets the second bit as that bit itself
  have met := shiftStep_eq_zero polynomial _ topBit
    (iterate_shiftStep_eq_zero polynomial _ _ topBit vanishes)
  have distance : (high - (low + 1)).succ = high - low := by omega
  rw [distance] at met
  refine isPeriodicPt_of_lowBit polynomial topBit positive _ ?_
  calc (shiftStep polynomial)^[high - low] (lowBit true)
      = ((shiftStep polynomial)^[high - low] (lowBit true) ^^^ lowBit true) ^^^ lowBit true := by
        rw [BitVec.xor_assoc, BitVec.xor_self, BitVec.xor_zero]
    _ = lowBit true := by rw [met, BitVec.zero_xor]

end ReflectedCrc
