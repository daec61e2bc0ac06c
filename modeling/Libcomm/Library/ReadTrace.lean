import Mathlib.Data.List.Basic

/-!
# Computations and the offsets they read

A computation over a memory is given with the list of offsets it reads.  `Within`
bounds them, and is split by the rules below along the computation: single bytes,
stretches that are copied or gone through, the memory behind a pointer, checks, and a
comparison with a pattern that stops at the first difference and is told nothing about
the bound.  A computation that `Follows` what it reads does not notice any other change
of the memory.
-/

set_option autoImplicit false

namespace ReadTrace

/-- A value, and the offsets that have been read to get it. -/
structure Reading (Value : Type) where
  value : Value
  reads : List Nat
  deriving DecidableEq

namespace Reading

instance : Monad Reading where
  pure value := ⟨value, []⟩
  bind first next := ⟨(next first.value).value, first.reads ++ (next first.value).reads⟩

variable {Value Next Byte : Type}

@[simp] theorem pure_value (value : Value) : (pure value : Reading Value).value = value := rfl

@[simp] theorem pure_reads (value : Value) : (pure value : Reading Value).reads = [] := rfl

@[simp] theorem bind_value (first : Reading Value) (next : Value → Reading Next) :
    (first >>= next).value = (next first.value).value := rfl

@[simp] theorem bind_reads (first : Reading Value) (next : Value → Reading Next) :
    (first >>= next).reads = first.reads ++ (next first.value).reads := rfl

def Within (bound : Nat) (reading : Reading Value) : Prop :=
  ∀ offset ∈ reading.reads, offset < bound

instance (bound : Nat) (reading : Reading Value) : Decidable (reading.Within bound) :=
  inferInstanceAs (Decidable (∀ offset ∈ reading.reads, offset < bound))

theorem within_pure (bound : Nat) (value : Value) : (pure value : Reading Value).Within bound := by
  simp [Within]

theorem within_bind_iff (bound : Nat) (first : Reading Value) (next : Value → Reading Next) :
    (first >>= next).Within bound ↔
      first.Within bound ∧ (next first.value).Within bound := by
  simp only [Within, bind_reads, List.mem_append]
  constructor
  · intro inside
    exact ⟨fun offset member => inside offset (Or.inl member),
      fun offset member => inside offset (Or.inr member)⟩
  · rintro ⟨front, back⟩ offset (member | member)
    · exact front offset member
    · exact back offset member

theorem Within.bind {bound : Nat} {first : Reading Value} {next : Value → Reading Next}
    (front : first.Within bound) (back : (next first.value).Within bound) :
    (first >>= next).Within bound :=
  (within_bind_iff bound first next).mpr ⟨front, back⟩

theorem Within.mono {bound wider : Nat} {reading : Reading Value} (inside : reading.Within bound)
    (wide : bound ≤ wider) : reading.Within wider :=
  fun offset member => Nat.lt_of_lt_of_le (inside offset member) wide

def load (memory : Nat → Byte) (offset : Nat) : Reading Byte := ⟨memory offset, [offset]⟩

theorem within_load_iff (bound : Nat) (memory : Nat → Byte) (offset : Nat) :
    (load memory offset).Within bound ↔ offset < bound := by
  simp [Within, load]

/-! ## Reading behind a pointer -/

/-- A computation over the memory behind a pointer, with offsets into the whole. -/
def behind (base : Nat) (reading : Reading Value) : Reading Value :=
  ⟨reading.value, reading.reads.map (base + ·)⟩

@[simp] theorem behind_value (base : Nat) (reading : Reading Value) :
    (reading.behind base).value = reading.value := rfl

theorem within_behind_iff (base bound : Nat) (reading : Reading Value) :
    (reading.behind base).Within (base + bound) ↔ reading.Within bound := by
  constructor
  · intro inside offset member
    have moved := inside (base + offset) (List.mem_map_of_mem member)
    omega
  · intro inside offset member
    obtain ⟨original, originalMember, rfl⟩ := List.mem_map.mp member
    have bound := inside original originalMember
    omega

/-! ## Stretches of the memory -/

def copy (memory : Nat → Byte) (offset count : Nat) : Reading (List Byte) :=
  ⟨(List.range count).map fun index => memory (offset + index),
    (List.range count).map (offset + ·)⟩

theorem copy_within {bound offset count : Nat} (memory : Nat → Byte)
    (inside : offset + count ≤ bound) : (copy memory offset count).Within bound := by
  intro position member
  obtain ⟨index, indexMember, rfl⟩ := List.mem_map.mp member
  have below := List.mem_range.mp indexMember
  omega

def foldBytes {State : Type} (step : State → Byte → State) (memory : Nat → Byte) :
    Nat → Nat → State → Reading State
  | _, 0, state => pure state
  | offset, count + 1, state => do
      let byte ← load memory offset
      foldBytes step memory (offset + 1) count (step state byte)

theorem foldBytes_value {State : Type} (step : State → Byte → State) (memory : Nat → Byte)
    (offset count : Nat) (state : State) :
    (foldBytes step memory offset count state).value =
      (copy memory offset count).value.foldl step state := by
  induction count generalizing offset state with
  | zero => rfl
  | succ count ih =>
      have stretch : (copy memory offset (count + 1)).value =
          memory offset :: (copy memory (offset + 1) count).value := by
        simp only [copy, List.range_succ_eq_map, List.map_cons, List.map_map, Nat.add_zero]
        refine congrArg _ (List.map_congr_left fun index _ => ?_)
        exact congrArg memory (by simp only [Nat.succ_eq_add_one]; omega)
      rw [stretch, List.foldl_cons, foldBytes, bind_value, ih]
      rfl

theorem foldBytes_within {State : Type} {bound offset count : Nat} (step : State → Byte → State)
    (memory : Nat → Byte) (inside : offset + count ≤ bound) (state : State) :
    (foldBytes step memory offset count state).Within bound := by
  induction count generalizing offset state with
  | zero => exact within_pure bound state
  | succ count ih =>
      exact ((within_load_iff bound memory offset).mpr (by omega)).bind (ih (by omega) _)

/-! ## Checks -/

def both (first second : Reading Bool) : Reading Bool := do
  let passed ← first
  if passed then second else pure false

def check (condition : Prop) [Decidable condition] (next : Reading Bool) : Reading Bool :=
  if condition then next else pure false

theorem both_value_iff (first second : Reading Bool) :
    (both first second).value = true ↔ first.value = true ∧ second.value = true := by
  rw [both, bind_value]
  cases first.value <;> simp

theorem check_value_iff (condition : Prop) [Decidable condition] (next : Reading Bool) :
    (check condition next).value = true ↔ condition ∧ next.value = true := by
  rw [check]
  split <;> simp [*]

theorem both_within {bound : Nat} {first second : Reading Bool} (front : first.Within bound)
    (back : first.value = true → second.Within bound) : (both first second).Within bound := by
  refine front.bind ?_
  split
  · rename_i passed
    exact back passed
  · exact within_pure bound false

theorem check_within {bound : Nat} {condition : Prop} [Decidable condition]
    {next : Reading Bool} (inside : condition → next.Within bound) :
    (check condition next).Within bound := by
  rw [check]
  split
  · rename_i holds
    exact inside holds
  · exact within_pure bound false

/-! ## Comparing with a pattern -/

/-- The bytes from an offset on are compared with a pattern, up to the first
that differs. -/
def compare [DecidableEq Byte] (memory : Nat → Byte) : Nat → List Byte → Reading Bool
  | _, [] => pure true
  | offset, byte :: pattern => do
      let found ← load memory offset
      if found = byte then compare memory (offset + 1) pattern else pure false

theorem compare_value [DecidableEq Byte] (memory : Nat → Byte) {offset : Nat} {pattern : List Byte}
    (other : Byte)
    (present : ∀ index < pattern.length, memory (offset + index) = pattern.getD index other) :
    (compare memory offset pattern).value = true := by
  induction pattern generalizing offset with
  | nil => rfl
  | cons byte pattern ih =>
      have first : (load memory offset).value = byte := present 0 (Nat.zero_lt_succ _)
      rw [compare, bind_value, if_pos first]
      refine ih fun index inside => ?_
      have position : offset + 1 + index = offset + (index + 1) := by omega
      rw [position, present (index + 1) (Nat.succ_lt_succ inside), List.getD_cons_succ]

theorem present_of_compare [DecidableEq Byte] (memory : Nat → Byte) {offset : Nat}
    {pattern : List Byte} (other : Byte) (found : (compare memory offset pattern).value = true) :
    ∀ index < pattern.length, memory (offset + index) = pattern.getD index other := by
  induction pattern generalizing offset with
  | nil => exact fun index inside => absurd inside (Nat.not_lt_zero index)
  | cons byte pattern ih =>
      rw [compare, bind_value] at found
      split at found
      · rename_i first
        intro index inside
        cases index with
        | zero => exact first
        | succ index =>
            have position : offset + (index + 1) = offset + 1 + index := by omega
            rw [position, ih found index (Nat.lt_of_succ_lt_succ inside), List.getD_cons_succ]
      · exact absurd found Bool.false_ne_true

def DiffersBelow (bound : Nat) (memory : Nat → Byte) (offset : Nat) (pattern : List Byte) :
    Prop :=
  ∃ index, offset + index < bound ∧ ∃ byte, pattern[index]? = some byte ∧
    memory (offset + index) ≠ byte

theorem DiffersBelow.offset_lt {bound : Nat} {memory : Nat → Byte} {offset : Nat}
    {pattern : List Byte} (differs : DiffersBelow bound memory offset pattern) :
    offset < bound := by
  obtain ⟨index, inside, _⟩ := differs
  omega

theorem differsBelow_cons_iff {bound : Nat} {memory : Nat → Byte} {offset : Nat} {byte : Byte}
    {pattern : List Byte} (same : memory offset = byte) :
    DiffersBelow bound memory offset (byte :: pattern) ↔
      DiffersBelow bound memory (offset + 1) pattern := by
  constructor
  · rintro ⟨index, inside, other, found, differs⟩
    cases index with
    | zero =>
        cases found
        exact absurd same differs
    | succ index =>
        have shifted : offset + 1 + index = offset + (index + 1) := by omega
        exact ⟨index, by omega, other, found, shifted ▸ differs⟩
  · rintro ⟨index, inside, other, found, differs⟩
    have shifted : offset + (index + 1) = offset + 1 + index := by omega
    exact ⟨index + 1, by omega, other, found, shifted ▸ differs⟩

/-- A comparison stays below a bound exactly when the pattern ends there or a
difference is found before. -/
theorem within_compare_iff [DecidableEq Byte] (bound : Nat) (memory : Nat → Byte) (offset : Nat)
    {pattern : List Byte} (nonEmpty : pattern ≠ []) :
    (compare memory offset pattern).Within bound ↔
      offset + pattern.length ≤ bound ∨ DiffersBelow bound memory offset pattern := by
  induction pattern generalizing offset with
  | nil => exact absurd rfl nonEmpty
  | cons byte pattern ih =>
      rw [compare, within_bind_iff, within_load_iff]
      by_cases same : memory offset = byte
      · rw [show (load memory offset).value = byte from same, if_pos rfl,
          differsBelow_cons_iff same, List.length_cons]
        cases pattern with
        | nil =>
            have nothing : ¬ DiffersBelow bound memory (offset + 1) [] := by
              rintro ⟨index, _, _, found, _⟩
              cases found
            simp only [compare, within_pure, nothing, List.length_nil, and_true, or_false]
            omega
        | cons next pattern =>
            rw [ih (offset + 1) (by simp), List.length_cons]
            constructor
            · rintro ⟨_, complete | differs⟩
              · exact Or.inl (by omega)
              · exact Or.inr differs
            · rintro (complete | differs)
              · exact ⟨by omega, Or.inl (by omega)⟩
              · exact ⟨Nat.lt_of_succ_lt differs.offset_lt, Or.inr differs⟩
      · rw [show (load memory offset).value = memory offset from rfl, if_neg same]
        have here : offset < bound → DiffersBelow bound memory offset (byte :: pattern) :=
          fun inside => ⟨0, inside, byte, rfl, same⟩
        constructor
        · exact fun inside => Or.inr (here inside.1)
        · rintro (complete | differs)
          · rw [List.length_cons] at complete
            exact ⟨by omega, within_pure bound false⟩
          · exact ⟨differs.offset_lt, within_pure bound false⟩

/-! ## What was not read -/

/-- A computation over a memory that goes by what it reads of it. -/
def Follows (reading : (Nat → Byte) → Reading Value) : Prop :=
  ∀ first second, (∀ offset ∈ (reading first).reads, first offset = second offset) →
    reading first = reading second

theorem follows_pure (value : Value) : Follows fun _ : Nat → Byte => (pure value : Reading Value) :=
  fun _ _ _ => rfl

theorem Follows.bind {first : (Nat → Byte) → Reading Value}
    {next : (Nat → Byte) → Value → Reading Next} (front : Follows first)
    (back : ∀ value, Follows fun memory => next memory value) :
    Follows fun memory => first memory >>= next memory := by
  intro one other same
  have begun : first one = first other := front one other fun offset member =>
    same offset (List.mem_append_left _ member)
  have ended : next one (first one).value = next other (first one).value :=
    back _ one other fun offset member => same offset (List.mem_append_right _ member)
  change (⟨_, _⟩ : Reading Next) = ⟨_, _⟩
  rw [← begun, ended]

theorem Follows.ite {first second : (Nat → Byte) → Reading Value} (condition : Prop)
    [Decidable condition] (front : Follows first) (back : Follows second) :
    Follows fun memory => if condition then first memory else second memory := by
  by_cases holds : condition
  · simp only [if_pos holds]
    exact front
  · simp only [if_neg holds]
    exact back

theorem Follows.both {first second : (Nat → Byte) → Reading Bool} (front : Follows first)
    (back : Follows second) : Follows fun memory => Reading.both (first memory) (second memory) :=
  front.bind fun _ => .ite _ back (follows_pure false)

theorem Follows.check (condition : Prop) [Decidable condition]
    {next : (Nat → Byte) → Reading Bool} (follows : Follows next) :
    Follows fun memory => Reading.check condition (next memory) :=
  .ite condition follows (follows_pure false)

theorem follows_load (offset : Nat) : Follows fun memory : Nat → Byte => load memory offset := by
  intro first second same
  exact congrArg (Reading.mk · _) (same offset List.mem_cons_self)

theorem follows_copy (offset count : Nat) :
    Follows fun memory : Nat → Byte => copy memory offset count := by
  intro first second same
  refine congrArg (Reading.mk · _) (List.map_congr_left fun index member => ?_)
  exact same _ (List.mem_map_of_mem member)

theorem follows_compare [DecidableEq Byte] (offset : Nat) (pattern : List Byte) :
    Follows fun memory : Nat → Byte => compare memory offset pattern := by
  induction pattern generalizing offset with
  | nil => exact follows_pure true
  | cons byte pattern ih =>
      exact (follows_load offset).bind fun found => .ite _ (ih (offset + 1)) (follows_pure false)

theorem Follows.eq_of_within {reading : (Nat → Byte) → Reading Value} (follows : Follows reading)
    {first second : Nat → Byte} {bound : Nat} (inside : (reading first).Within bound)
    (same : ∀ offset < bound, first offset = second offset) : reading first = reading second :=
  follows first second fun offset member => same offset (inside offset member)

end Reading

end ReadTrace
