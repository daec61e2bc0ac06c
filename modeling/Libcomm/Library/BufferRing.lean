import Mathlib.Algebra.Group.Fin.Basic
import Mathlib.Algebra.GroupWithZero.Nat
import Mathlib.Data.Fin.Basic
import Mathlib.Logic.Function.Basic

/-!
# A ring of buffers

A producer fills a fixed number of cells in turn.  Every filling is noted, with
what all cells held when it was made.  A content stays in its cell until the ring
has come round: the next `count - 1` fillings find it as it was.
-/

set_option autoImplicit false

namespace BufferRing

variable {count : Nat} {Content : Type}

structure Filling (count : Nat) (Content : Type) where
  cell : Fin count
  content : Content
  /-- The cells once this one was filled. -/
  cells : Fin count → Content

structure Ring (count : Nat) (Content : Type) where
  cells : Fin count → Content
  next : Fin count
  fillings : List (Filling count Content)

namespace Ring

def start (cells : Fin count → Content) (next : Fin count) : Ring count Content :=
  ⟨cells, next, []⟩

variable [NeZero count]

def fill (ring : Ring count Content) (content : Content) : Ring count Content :=
  let cells := Function.update ring.cells ring.next content
  ⟨cells, ring.next + 1, ring.fillings ++ [⟨ring.next, content, cells⟩]⟩

def fillAll (ring : Ring count Content) (contents : List Content) : Ring count Content :=
  contents.foldl fill ring

theorem fillAll_snoc (ring : Ring count Content) (contents : List Content) (content : Content) :
    ring.fillAll (contents ++ [content]) = (ring.fillAll contents).fill content := by
  simp [fillAll]

end Ring

variable [NeZero count]

theorem ofNat_succ (steps : Nat) :
    Fin.ofNat count (steps + 1) = Fin.ofNat count steps + 1 := by
  apply Fin.ext
  rw [Fin.val_add, Fin.val_ofNat, Fin.val_ofNat, Fin.val_one', Nat.add_mod]

theorem add_ne_self (cell : Fin count) {steps : Nat} (positive : 0 < steps)
    (short : steps < count) : cell + Fin.ofNat count steps ≠ cell := by
  intro same
  have zero := congrArg Fin.val (add_eq_left.mp same)
  rw [Fin.val_ofNat, Nat.mod_eq_of_lt short] at zero
  exact Nat.ne_of_gt positive zero

/-- What a filling leaves alone, by its age. -/
structure Turns (ring : Ring count Content) : Prop where
  /-- A filling that the ring has not come round to is where it was made. -/
  recent : ∀ index filling, ring.fillings[index]? = some filling →
    ring.fillings.length ≤ index + count →
      ring.next = filling.cell + Fin.ofNat count (ring.fillings.length - index) ∧
        ring.cells filling.cell = filling.content
  kept : ∀ first second earlier later, first < second → second < first + count →
    ring.fillings[first]? = some earlier → ring.fillings[second]? = some later →
      later.cell ≠ earlier.cell ∧ later.cells earlier.cell = earlier.content

theorem Turns.start (cells : Fin count → Content) (next : Fin count) :
    Turns (Ring.start cells next) :=
  ⟨fun _ _ noted => by simp [Ring.start] at noted,
    fun _ _ _ _ _ _ noted => by simp [Ring.start] at noted⟩

/-- A filling less than a round old is not overwritten. -/
theorem Turns.spared {ring : Ring count Content} (turns : Turns ring) {index : Nat}
    {filling : Filling count Content} (noted : ring.fillings[index]? = some filling)
    (young : ring.fillings.length < index + count) (content : Content) :
    ring.next ≠ filling.cell ∧
      (ring.fill content).cells filling.cell = filling.content := by
  obtain ⟨next, held⟩ := turns.recent index filling noted (Nat.le_of_lt young)
  obtain ⟨inside, _⟩ := List.getElem?_eq_some_iff.mp noted
  have other : ring.next ≠ filling.cell := by
    rw [next]
    exact add_ne_self filling.cell (by omega) (by omega)
  refine ⟨other, ?_⟩
  rw [← held]
  exact Function.update_of_ne other.symm _ _

theorem Turns.fill {ring : Ring count Content} (turns : Turns ring) (content : Content) :
    Turns (ring.fill content) := by
  have length : (ring.fill content).fillings.length = ring.fillings.length + 1 := by
    simp [Ring.fill]
  have noted_cases {index : Nat} {filling : Filling count Content}
      (noted : (ring.fill content).fillings[index]? = some filling) :
      ring.fillings[index]? = some filling ∨ (index = ring.fillings.length ∧
        filling = ⟨ring.next, content, (ring.fill content).cells⟩) := by
    obtain ⟨inside, _⟩ := List.getElem?_eq_some_iff.mp noted
    rw [length] at inside
    by_cases old : index < ring.fillings.length
    · left
      rwa [Ring.fill, List.getElem?_append_left old] at noted
    · obtain rfl : index = ring.fillings.length := by omega
      refine Or.inr ⟨rfl, ?_⟩
      simpa [Ring.fill, eq_comm] using noted
  constructor
  · intro index filling noted young
    rw [length] at young ⊢
    rcases noted_cases noted with old | ⟨rfl, rfl⟩
    · obtain ⟨next, _⟩ := turns.recent index filling old (by omega)
      obtain ⟨inside, _⟩ := List.getElem?_eq_some_iff.mp old
      refine ⟨?_, (turns.spared old (by omega) content).2⟩
      have older : ring.fillings.length + 1 - index = ring.fillings.length - index + 1 := by omega
      change ring.next + 1 = _
      rw [next, older, ofNat_succ, add_assoc]
    · refine ⟨?_, Function.update_self _ _ _⟩
      have newest : ring.fillings.length + 1 - ring.fillings.length = 0 + 1 := by omega
      change ring.next + 1 = ring.next + _
      rw [newest, ofNat_succ, show Fin.ofNat count 0 = 0 from rfl, zero_add]
  · intro first second earlier later order close earlierNoted laterNoted
    rcases noted_cases laterNoted with old | ⟨rfl, rfl⟩
    · obtain ⟨inside, _⟩ := List.getElem?_eq_some_iff.mp old
      rcases noted_cases earlierNoted with older | ⟨rfl, _⟩
      · exact turns.kept first second earlier later order close older old
      · omega
    · rcases noted_cases earlierNoted with older | ⟨rfl, _⟩
      · exact turns.spared older close content
      · omega

theorem Turns.fillAll {ring : Ring count Content} (turns : Turns ring)
    (contents : List Content) : Turns (ring.fillAll contents) := by
  induction contents generalizing ring with
  | nil => exact turns
  | cons content rest ih => exact ih (turns.fill content)

/-- With more than one cell a filling outlives the next one. -/
theorem Turns.adjacent {ring : Ring count Content} (turns : Turns ring) (several : 1 < count)
    {front back : List (Filling count Content)} {previous next : Filling count Content}
    (whole : ring.fillings = front ++ previous :: next :: back) :
    next.cell ≠ previous.cell ∧ next.cells previous.cell = previous.content := by
  apply turns.kept front.length (front.length + 1) previous next (Nat.lt_succ_self _) (by omega)
  · rw [whole, List.getElem?_append_right (Nat.le_refl _), Nat.sub_self]
    rfl
  · rw [whole, List.getElem?_append_right (Nat.le_add_right _ 1), Nat.add_sub_cancel_left]
    rfl

end BufferRing
