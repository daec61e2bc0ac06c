import Libcomm.Library.LittleEndian
import Libcomm.Library.ReadTrace

/-!
# Reading FlatBuffers

A buffer begins with the offset of its root table and an identifier.  A table begins
with the signed distance to its vtable, which has the size of the vtable, the size of the
table, and for every field its offset in the table or zero.  Scalars stand in the table;
strings and vectors, and the member of a union, are reached through an unsigned offset.
The verifier is modelled with its reads, for tables of scalars, strings and byte vectors
under a root whose two fields are a union: it stays inside the size it is told, and what
it has accepted can be read inside that size.
-/

set_option autoImplicit false

namespace FlatBuffers

open ReadTrace Reading

/-! ## Accessors -/

section Accessors
variable (memory : Nat → UInt8)

def readScalar (count offset : Nat) : Reading Nat := do
  let bytes ← copy memory offset count
  pure (LittleEndian.decode bytes)

def follow (position : Nat) : Reading Nat := do
  let distance ← readScalar memory 4 position
  pure (position + distance)

/-- The distance is subtracted, and may be negative. -/
def vtableOf (table : Nat) : Reading Nat := do
  let distance ← readScalar memory 4 table
  pure (if distance < 2 ^ 31 then table - distance else table + (2 ^ 32 - distance))

/-- Zero if the vtable ends before the field. -/
def fieldOffset (table slot : Nat) : Reading Nat := do
  let vtable ← vtableOf memory table
  let length ← readScalar memory 2 vtable
  if 4 + 2 * slot < length then readScalar memory 2 (vtable + (4 + 2 * slot)) else pure 0

/-- Scalars have a size and a default; strings are vectors with a zero behind them. -/
inductive FieldType where
  | scalar (count default : Nat)
  | vector (terminated : Bool)
  deriving DecidableEq, Repr

inductive FieldValue where
  | scalar (value : Nat)
  | vector (bytes : Option (List UInt8))
  deriving DecidableEq, Repr

def readVector (vector : Nat) : Reading (List UInt8) := do
  let length ← readScalar memory 4 vector
  copy memory (vector + 4) length

def readField (table slot : Nat) : FieldType → Reading FieldValue
  | .scalar count default => do
      let offset ← fieldOffset memory table slot
      if offset = 0 then pure (.scalar default)
      else do
        let value ← readScalar memory count (table + offset)
        pure (.scalar value)
  | .vector _ => do
      let offset ← fieldOffset memory table slot
      if offset = 0 then pure (.vector none)
      else do
        let vector ← follow memory (table + offset)
        let bytes ← readVector memory vector
        pure (.vector (some bytes))

def readFields (table : Nat) : Nat → List FieldType → Reading (List FieldValue)
  | _, [] => pure []
  | slot, type :: types => do
      let value ← readField memory table slot type
      let values ← readFields table (slot + 1) types
      pure (value :: values)

/-- The type of a union stands in the slot in front of its member. -/
def unionType (table : Nat) : Reading Nat := do
  let offset ← fieldOffset memory table 0
  if offset = 0 then pure 0 else readScalar memory 1 (table + offset)

def unionTable (table : Nat) : Reading (Option Nat) := do
  let offset ← fieldOffset memory table 1
  if offset = 0 then pure none
  else do
    let member ← follow memory (table + offset)
    pure (some member)

def memberOf (type : Nat) : Reading (Option Nat) := do
  let root ← follow memory 0
  let found ← unionType memory root
  if found = type then unionTable memory root else pure none

def readMember (type : Nat) (fields : List FieldType) : Reading (Option (List FieldValue)) := do
  let member ← memberOf memory type
  match member with
  | some table => do
      let values ← readFields memory table 0 fields
      pure (some values)
  | none => pure none

end Accessors

/-! ## The verifier -/

/-- So many bytes are in the buffer, and are not all of it. -/
def Fits (size count position : Nat) : Prop := count < size ∧ position + count ≤ size

def Aligned (size count position : Nat) : Prop := position % count = 0 ∧ Fits size count position

instance (size count position : Nat) : Decidable (Fits size count position) :=
  inferInstanceAs (Decidable (_ ∧ _))

instance (size count position : Nat) : Decidable (Aligned size count position) :=
  inferInstanceAs (Decidable (_ ∧ _))

section Verifier
variable (memory : Nat → UInt8) (size : Nat)

def verifyOffset (position : Nat) : Reading Bool :=
  check (Aligned size 4 position) do
    let distance ← readScalar memory 4 position
    pure (decide (distance ≠ 0 ∧ distance < 2 ^ 31 ∧ Fits size 1 (position + distance)))

def verifyTableStart (table : Nat) : Reading Bool :=
  check (Aligned size 4 table) do
    let vtable ← vtableOf memory table
    check (Aligned size 2 vtable) do
      let length ← readScalar memory 2 vtable
      pure (decide (length % 2 = 0 ∧ Fits size length vtable))

def verifyVector (terminated : Bool) (vector : Nat) : Reading Bool :=
  check (Aligned size 4 vector) do
    let length ← readScalar memory 4 vector
    check (length < 2 ^ 31 ∧ Fits size (4 + length) vector)
      (if terminated then
        check (Fits size 1 (vector + 4 + length)) do
          let last ← load memory (vector + 4 + length)
          pure (last == 0)
      else pure true)

def verifyField (table slot : Nat) : FieldType → Reading Bool
  | .scalar count _ => do
      let offset ← fieldOffset memory table slot
      pure (decide (offset = 0 ∨ Aligned size count (table + offset)))
  | .vector terminated => do
      let offset ← fieldOffset memory table slot
      if offset = 0 then pure true
      else both (verifyOffset memory size (table + offset)) do
        let vector ← follow memory (table + offset)
        verifyVector memory size terminated vector

def verifyFields (table : Nat) : Nat → List FieldType → Reading Bool
  | _, [] => pure true
  | slot, type :: types =>
      both (verifyField memory size table slot type) (verifyFields table (slot + 1) types)

def verifyTable (table : Nat) (fields : List FieldType) : Reading Bool :=
  both (verifyTableStart memory size table) (verifyFields memory size table 0 fields)

def verifyMemberOffset (table : Nat) : Reading Bool := do
  let offset ← fieldOffset memory table 1
  if offset = 0 then pure true else verifyOffset memory size (table + offset)

/-- A member of a type without known fields is accepted as it is. -/
def verifyMember (members : Nat → Option (List FieldType)) (table : Nat) : Reading Bool := do
  let type ← unionType memory table
  match members type with
  | some fields => do
      let member ← unionTable memory table
      match member with
      | some member => verifyTable memory size member fields
      | none => pure true
  | none => pure true

def verifyRoot (members : Nat → Option (List FieldType)) (table : Nat) : Reading Bool :=
  both (verifyTableStart memory size table)
    (both (verifyField memory size table 0 (.scalar 1 0))
      (both (verifyMemberOffset memory size table) (verifyMember memory size members table)))

def verifyBuffer (identifier : List UInt8) (members : Nat → Option (List FieldType)) :
    Reading Bool :=
  check (8 ≤ size)
    (both (compare memory 4 identifier)
      (both (verifyOffset memory size 0) do
        let root ← follow memory 0
        verifyRoot memory size members root))

end Verifier

/-! ## What the accessors follow -/

theorem follows_readScalar (count offset : Nat) :
    Follows fun memory => readScalar memory count offset :=
  (follows_copy offset count).bind fun _ => follows_pure _

theorem follows_follow (position : Nat) : Follows fun memory => follow memory position :=
  (follows_readScalar 4 position).bind fun _ => follows_pure _

theorem follows_vtableOf (table : Nat) : Follows fun memory => vtableOf memory table :=
  (follows_readScalar 4 table).bind fun _ => follows_pure _

theorem follows_fieldOffset (table slot : Nat) :
    Follows fun memory => fieldOffset memory table slot :=
  (follows_vtableOf table).bind fun vtable => (follows_readScalar 2 vtable).bind fun _ =>
    .ite _ (follows_readScalar 2 _) (follows_pure 0)

theorem follows_readField (table slot : Nat) (type : FieldType) :
    Follows fun memory => readField memory table slot type := by
  cases type with
  | scalar count default =>
      refine (follows_fieldOffset table slot).bind fun offset => .ite _ (follows_pure _) ?_
      exact (follows_readScalar count _).bind fun _ => follows_pure _
  | vector terminated =>
      refine (follows_fieldOffset table slot).bind fun offset => .ite _ (follows_pure _) ?_
      refine (follows_follow _).bind fun vector => Follows.bind ?_ fun _ => follows_pure _
      exact (follows_readScalar 4 vector).bind fun length => follows_copy (vector + 4) length

theorem follows_readFields (table slot : Nat) (types : List FieldType) :
    Follows fun memory => readFields memory table slot types := by
  induction types generalizing slot with
  | nil => exact follows_pure []
  | cons type types ih =>
      exact (follows_readField table slot type).bind fun _ => (ih (slot + 1)).bind fun _ =>
        follows_pure _

theorem follows_unionType (table : Nat) : Follows fun memory => unionType memory table :=
  (follows_fieldOffset table 0).bind fun _ => .ite _ (follows_pure 0) (follows_readScalar 1 _)

theorem follows_unionTable (table : Nat) : Follows fun memory => unionTable memory table :=
  (follows_fieldOffset table 1).bind fun _ => .ite _ (follows_pure none)
    ((follows_follow _).bind fun _ => follows_pure _)

theorem follows_memberOf (type : Nat) : Follows fun memory => memberOf memory type :=
  (follows_follow 0).bind fun root => (follows_unionType root).bind fun _ =>
    .ite _ (follows_unionTable root) (follows_pure none)

theorem follows_readMember (type : Nat) (fields : List FieldType) :
    Follows fun memory => readMember memory type fields := by
  refine (follows_memberOf type).bind fun member => ?_
  cases member with
  | none => exact follows_pure none
  | some table => exact (follows_readFields table 0 fields).bind fun _ => follows_pure _

theorem follows_verifyOffset (size position : Nat) :
    Follows fun memory => verifyOffset memory size position :=
  .check _ ((follows_readScalar 4 position).bind fun _ => follows_pure _)

theorem follows_verifyTableStart (size table : Nat) :
    Follows fun memory => verifyTableStart memory size table :=
  .check _ ((follows_vtableOf table).bind fun vtable =>
    .check _ ((follows_readScalar 2 vtable).bind fun _ => follows_pure _))

theorem follows_verifyVector (size : Nat) (terminated : Bool) (vector : Nat) :
    Follows fun memory => verifyVector memory size terminated vector :=
  .check _ ((follows_readScalar 4 vector).bind fun _ => .check _
    (.ite _ (.check _ ((follows_load _).bind fun _ => follows_pure _)) (follows_pure true)))

theorem follows_verifyField (size table slot : Nat) (type : FieldType) :
    Follows fun memory => verifyField memory size table slot type := by
  cases type with
  | scalar count default => exact (follows_fieldOffset table slot).bind fun _ => follows_pure _
  | vector terminated =>
      exact (follows_fieldOffset table slot).bind fun _ => .ite _ (follows_pure true)
        (.both (follows_verifyOffset size _) ((follows_follow _).bind fun vector =>
          follows_verifyVector size terminated vector))

theorem follows_verifyFields (size table slot : Nat) (types : List FieldType) :
    Follows fun memory => verifyFields memory size table slot types := by
  induction types generalizing slot with
  | nil => exact follows_pure true
  | cons type types ih => exact .both (follows_verifyField size table slot type) (ih (slot + 1))

theorem follows_verifyTable (size table : Nat) (fields : List FieldType) :
    Follows fun memory => verifyTable memory size table fields :=
  .both (follows_verifyTableStart size table) (follows_verifyFields size table 0 fields)

theorem follows_verifyMember (size : Nat) (members : Nat → Option (List FieldType)) (table : Nat) :
    Follows fun memory => verifyMember memory size members table := by
  refine (follows_unionType table).bind fun type => ?_
  cases members type with
  | none => exact follows_pure true
  | some fields =>
      refine (follows_unionTable table).bind fun member => ?_
      cases member with
      | none => exact follows_pure true
      | some member => exact follows_verifyTable size member fields

theorem follows_verifyBuffer (size : Nat) (identifier : List UInt8)
    (members : Nat → Option (List FieldType)) :
    Follows fun memory => verifyBuffer memory size identifier members := by
  refine .check _ (.both (follows_compare 4 identifier) (.both (follows_verifyOffset size 0) ?_))
  refine (follows_follow 0).bind fun root => .both (follows_verifyTableStart size root)
    (.both (follows_verifyField size root 0 _) (.both ?_ (follows_verifyMember size members root)))
  exact (follows_fieldOffset root 1).bind fun _ =>
    .ite _ (follows_pure true) (follows_verifyOffset size _)

/-! ## What the verifier reads -/

section Inside
variable {memory : Nat → UInt8} {size : Nat}

theorem readScalar_within {count offset : Nat} (inside : offset + count ≤ size) :
    (readScalar memory count offset).Within size :=
  (copy_within memory inside).bind (within_pure size _)

theorem follow_within {position : Nat} (inside : position + 4 ≤ size) :
    (follow memory position).Within size :=
  (readScalar_within inside).bind (within_pure size _)

theorem vtableOf_within {table : Nat} (inside : table + 4 ≤ size) :
    (vtableOf memory table).Within size :=
  (readScalar_within inside).bind (within_pure size _)

structure Started (memory : Nat → UInt8) (size table : Nat) : Prop where
  inside : table + 4 ≤ size
  header : (vtableOf memory table).value + 2 ≤ size
  even : (readScalar memory 2 (vtableOf memory table).value).value % 2 = 0
  fields : (vtableOf memory table).value +
    (readScalar memory 2 (vtableOf memory table).value).value ≤ size

theorem verifyTableStart_within (table : Nat) :
    (verifyTableStart memory size table).Within size :=
  check_within fun aligned => (vtableOf_within aligned.2.2).bind (check_within fun header =>
    (readScalar_within header.2.2).bind (within_pure size _))

theorem started_of_verified {table : Nat}
    (verified : (verifyTableStart memory size table).value = true) :
    Started memory size table := by
  rw [verifyTableStart, check_value_iff, bind_value, check_value_iff, bind_value, pure_value,
    decide_eq_true_iff] at verified
  obtain ⟨aligned, header, even, fits⟩ := verified
  exact ⟨aligned.2.2, header.2.2, even, fits.2⟩

theorem fieldOffset_within {table : Nat} (started : Started memory size table) (slot : Nat) :
    (fieldOffset memory table slot).Within size := by
  have even := started.even
  have fields := started.fields
  refine (vtableOf_within started.inside).bind ((readScalar_within started.header).bind ?_)
  split
  · exact readScalar_within (by omega)
  · exact within_pure size 0

theorem verifyOffset_within (position : Nat) : (verifyOffset memory size position).Within size :=
  check_within fun aligned => (readScalar_within aligned.2.2).bind (within_pure size _)

theorem inside_of_verifyOffset {position : Nat}
    (verified : (verifyOffset memory size position).value = true) : position + 4 ≤ size :=
  ((check_value_iff _ _).mp verified).1.2.2

theorem verifyVector_within (terminated : Bool) (vector : Nat) :
    (verifyVector memory size terminated vector).Within size := by
  refine check_within fun aligned => (readScalar_within aligned.2.2).bind (check_within fun _ => ?_)
  split
  · refine check_within fun last => Within.bind ?_ (within_pure size _)
    exact (within_load_iff size memory _).mpr last.2
  · exact within_pure size true

theorem readVector_within {terminated : Bool} {vector : Nat}
    (verified : (verifyVector memory size terminated vector).value = true) :
    (readVector memory vector).Within size := by
  rw [verifyVector, check_value_iff, bind_value, check_value_iff] at verified
  obtain ⟨aligned, ⟨_, fits⟩, _⟩ := verified
  exact (readScalar_within aligned.2.2).bind (copy_within memory (by
    have whole := fits.2
    omega))

theorem verifyField_within {table : Nat} (started : Started memory size table) (slot : Nat)
    (type : FieldType) : (verifyField memory size table slot type).Within size := by
  cases type with
  | scalar count default => exact (fieldOffset_within started slot).bind (within_pure size _)
  | vector terminated =>
      refine (fieldOffset_within started slot).bind ?_
      split
      · exact within_pure size true
      · exact both_within (verifyOffset_within _) fun offset =>
          (follow_within (inside_of_verifyOffset offset)).bind (verifyVector_within terminated _)

theorem readField_within {table : Nat} (started : Started memory size table) {slot : Nat}
    {type : FieldType} (verified : (verifyField memory size table slot type).value = true) :
    (readField memory table slot type).Within size := by
  cases type with
  | scalar count default =>
      have fits := of_decide_eq_true verified
      refine (fieldOffset_within started slot).bind ?_
      split
      · exact within_pure size _
      · rename_i present
        have aligned := fits.resolve_left present
        exact (readScalar_within aligned.2.2).bind (within_pure size _)
  | vector terminated =>
      rw [verifyField, bind_value] at verified
      refine (fieldOffset_within started slot).bind ?_
      split
      · exact within_pure size _
      · rename_i present
        rw [if_neg present, both_value_iff, bind_value] at verified
        exact (follow_within (inside_of_verifyOffset verified.1)).bind
          ((readVector_within verified.2).bind (within_pure size _))

theorem verifyFields_within {table : Nat} (started : Started memory size table) (slot : Nat)
    (types : List FieldType) : (verifyFields memory size table slot types).Within size := by
  induction types generalizing slot with
  | nil => exact within_pure size true
  | cons type types ih => exact both_within (verifyField_within started slot type) fun _ => ih _

theorem readFields_within {table : Nat} (started : Started memory size table) {slot : Nat}
    {types : List FieldType} (verified : (verifyFields memory size table slot types).value = true) :
    (readFields memory table slot types).Within size := by
  induction types generalizing slot with
  | nil => exact within_pure size _
  | cons type types ih =>
      rw [verifyFields, both_value_iff] at verified
      exact (readField_within started verified.1).bind ((ih verified.2).bind (within_pure size _))

theorem verifyTable_within (table : Nat) (fields : List FieldType) :
    (verifyTable memory size table fields).Within size :=
  both_within (verifyTableStart_within table) fun start =>
    verifyFields_within (started_of_verified start) 0 fields

structure Rooted (memory : Nat → UInt8) (size table : Nat) : Prop where
  started : Started memory size table
  typed : (verifyField memory size table 0 (.scalar 1 0)).value = true
  member : (verifyMemberOffset memory size table).value = true

theorem unionType_within {table : Nat} (rooted : Rooted memory size table) :
    (unionType memory table).Within size := by
  have fits := of_decide_eq_true rooted.typed
  refine (fieldOffset_within rooted.started 0).bind ?_
  split
  · exact within_pure size 0
  · rename_i present
    exact readScalar_within (fits.resolve_left present).2.2

theorem unionTable_within {table : Nat} (rooted : Rooted memory size table) :
    (unionTable memory table).Within size := by
  have verified := rooted.member
  rw [verifyMemberOffset, bind_value] at verified
  refine (fieldOffset_within rooted.started 1).bind ?_
  split
  · exact within_pure size none
  · rename_i present
    rw [if_neg present] at verified
    exact (follow_within (inside_of_verifyOffset verified)).bind (within_pure size _)

theorem verifyMember_within {table : Nat} (rooted : Rooted memory size table)
    (members : Nat → Option (List FieldType)) :
    (verifyMember memory size members table).Within size := by
  refine (unionType_within rooted).bind ?_
  split
  · refine (unionTable_within rooted).bind ?_
    split
    · exact verifyTable_within _ _
    · exact within_pure size true
  · exact within_pure size true

theorem verifyMemberOffset_within {table : Nat} (started : Started memory size table) :
    (verifyMemberOffset memory size table).Within size := by
  refine (fieldOffset_within started 1).bind ?_
  split
  · exact within_pure size true
  · exact verifyOffset_within _

/-- **The verifier stays inside** the size it is told. -/
theorem verifyBuffer_within {identifier : List UInt8} (length : identifier.length = 4)
    (members : Nat → Option (List FieldType)) :
    (verifyBuffer memory size identifier members).Within size := by
  have nonEmpty : identifier ≠ [] := by
    rintro rfl
    cases length
  refine check_within fun room => both_within ?_ fun _ => both_within (verifyOffset_within 0)
    fun offset => (follow_within (inside_of_verifyOffset offset)).bind ?_
  · exact (within_compare_iff size memory 4 nonEmpty).mpr (Or.inl (by rw [length]; exact room))
  · refine both_within (verifyTableStart_within _) fun start => ?_
    have started := started_of_verified start
    exact both_within (verifyField_within started 0 _) fun typed =>
      both_within (verifyMemberOffset_within started) fun member =>
        verifyMember_within ⟨started, typed, member⟩ members

/-! ## What was verified -/

/-- What is known of a buffer that was accepted. -/
structure Verified (memory : Nat → UInt8) (size : Nat) (identifier : List UInt8)
    (members : Nat → Option (List FieldType)) : Prop where
  room : 8 ≤ size
  identified : (compare memory 4 identifier).value = true
  rooted : Rooted memory size (follow memory 0).value
  member : ∀ {fields table},
    members (unionType memory (follow memory 0).value).value = some fields →
    (unionTable memory (follow memory 0).value).value = some table →
    (verifyTable memory size table fields).value = true

theorem verified_of_accepted {identifier : List UInt8} {members : Nat → Option (List FieldType)}
    (accepted : (verifyBuffer memory size identifier members).value = true) :
    Verified memory size identifier members := by
  rw [verifyBuffer, check_value_iff, both_value_iff, both_value_iff, bind_value, verifyRoot,
    both_value_iff, both_value_iff, both_value_iff] at accepted
  obtain ⟨room, identified, offset, start, typed, offsets, accepted⟩ := accepted
  refine ⟨room, identified, ⟨started_of_verified start, typed, offsets⟩, ?_⟩
  intro fields table known present
  rw [verifyMember, bind_value, known] at accepted
  change (match (unionTable memory _).value with
    | some member => verifyTable memory size member fields
    | none => pure true).value = true at accepted
  rwa [present] at accepted

variable {identifier : List UInt8} {members : Nat → Option (List FieldType)}

theorem memberOf_within (verified : Verified memory size identifier members) (type : Nat) :
    (memberOf memory type).Within size := by
  have room := verified.room
  refine (follow_within (by omega)).bind ((unionType_within verified.rooted).bind ?_)
  split
  · exact unionTable_within verified.rooted
  · exact within_pure size none

/-- **A verified member can be read**, and no field of it lies outside. -/
theorem readMember_within (verified : Verified memory size identifier members) {type : Nat}
    {fields : List FieldType} (known : members type = some fields) :
    (readMember memory type fields).Within size := by
  refine (memberOf_within verified type).bind ?_
  split
  · rename_i table present
    rw [memberOf, bind_value, bind_value] at present
    split at present
    · rename_i same
      have whole := verified.member (same ▸ known) present
      rw [verifyTable, both_value_iff] at whole
      exact (readFields_within (started_of_verified whole.1) whole.2).bind (within_pure size _)
    · cases present
  · exact within_pure size none

end Inside

end FlatBuffers
