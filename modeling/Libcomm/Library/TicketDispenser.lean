import Libcomm.Library.LabelledRun
import Mathlib.Data.List.Perm.Basic
import Mathlib.Data.List.Sort

/-!
# Ticket dispensers

Tickets are issued one after the other, from zero on.  An issued ticket is held
until it is used or discarded, in whatever order.  Every ticket is accounted for
once, and as long as the oldest ticket is always taken, tickets are used in the
order in which they were issued.
-/

set_option autoImplicit false

namespace TicketDispenser

open LabelledRun

structure Dispenser where
  issued : Nat
  held : List Nat
  used : List Nat
  discarded : List Nat

def Dispenser.full : Dispenser := ⟨0, [], [], []⟩

inductive Move where
  | issue
  | use (index : Nat)
  | discard (index : Nat)
  deriving DecidableEq

def Move.Oldest : Move → Prop
  | .issue => True
  | .use index => index = 0
  | .discard _ => True

inductive Moves : Dispenser → Move → Dispenser → Prop where
  | issue (dispenser : Dispenser) :
      Moves dispenser .issue { dispenser with
        issued := dispenser.issued + 1
        held := dispenser.held ++ [dispenser.issued] }
  | use {dispenser : Dispenser} {index ticket : Nat}
      (taken : dispenser.held[index]? = some ticket) :
      Moves dispenser (.use index) { dispenser with
        held := dispenser.held.eraseIdx index
        used := dispenser.used ++ [ticket] }
  | discard {dispenser : Dispenser} {index ticket : Nat}
      (taken : dispenser.held[index]? = some ticket) :
      Moves dispenser (.discard index) { dispenser with
        held := dispenser.held.eraseIdx index
        discarded := dispenser.discarded ++ [ticket] }

theorem perm_of_taken {held : List Nat} {index ticket : Nat}
    (taken : held[index]? = some ticket) : held.Perm (ticket :: held.eraseIdx index) := by
  obtain ⟨inside, rfl⟩ := List.getElem?_eq_some_iff.mp taken
  exact (List.getElem_cons_eraseIdx_perm inside).symm

/-! ## Every ticket once -/

/-- The tickets issued so far are those used, discarded and held. -/
def Accounted (dispenser : Dispenser) : Prop :=
  (dispenser.used ++ (dispenser.discarded ++ dispenser.held)).Perm (List.range dispenser.issued)

theorem Accounted.move {before after : Dispenser} {move : Move} (accounted : Accounted before)
    (moved : Moves before move after) : Accounted after := by
  unfold Accounted at accounted ⊢
  cases moved with
  | issue =>
      rw [List.range_succ, ← List.append_assoc before.discarded, ← List.append_assoc before.used]
      exact accounted.append_right _
  | use taken =>
      refine List.Perm.trans ?_ accounted
      rw [List.append_assoc, List.singleton_append]
      have back := (perm_of_taken taken).symm.append_left before.discarded
      exact (List.perm_middle.symm.trans back).append_left before.used
  | discard taken =>
      refine List.Perm.trans ?_ accounted
      rw [List.append_assoc, List.singleton_append]
      exact ((perm_of_taken taken).symm.append_left _).append_left _

theorem Accounted.run {moves : List Move} {final : Dispenser}
    (run : Run Moves .full moves final) : Accounted final :=
  run.invariant Accounted (fun _ => True) (show Accounted .full from List.Perm.refl [])
    (fun _ _ _ accounted _ moved => accounted.move moved) fun _ _ => trivial

theorem Accounted.nodup {dispenser : Dispenser} (accounted : Accounted dispenser) :
    (dispenser.used ++ (dispenser.discarded ++ dispenser.held)).Nodup :=
  accounted.nodup_iff.mpr List.nodup_range

/-! ## In the order of issue -/

/-- Used tickets are older than held ones, and both stand in the order of issue. -/
structure InOrder (dispenser : Dispenser) : Prop where
  sorted : (dispenser.used ++ dispenser.held).Pairwise (· < ·)
  issued : ∀ ticket ∈ dispenser.used ++ dispenser.held, ticket < dispenser.issued

theorem InOrder.move {before after : Dispenser} {move : Move} (ordered : InOrder before)
    (oldest : move.Oldest) (moved : Moves before move after) : InOrder after := by
  obtain ⟨sorted, issued⟩ := ordered
  cases moved with
  | issue =>
      have whole : before.used ++ (before.held ++ [before.issued]) =
          before.used ++ before.held ++ [before.issued] := (List.append_assoc _ _ _).symm
      refine ⟨?_, ?_⟩
      · rw [whole]
        refine List.pairwise_append.mpr ⟨sorted, List.pairwise_singleton _ _, ?_⟩
        intro ticket member other latest
        rw [List.mem_singleton.mp latest]
        exact issued ticket member
      · intro ticket member
        rw [whole] at member
        rcases List.mem_append.mp member with member | latest
        · exact Nat.lt_succ_of_lt (issued ticket member)
        · rw [List.mem_singleton.mp latest]
          exact Nat.lt_succ_self _
  | @use index ticket taken =>
      cases (show index = 0 from oldest)
      rw [← List.head?_eq_getElem?] at taken
      obtain ⟨rest, held⟩ := List.head?_eq_some_iff.mp taken
      have same : before.used ++ [ticket] ++ before.held.eraseIdx 0 =
          before.used ++ before.held := by
        rw [held, List.append_assoc]
        rfl
      exact ⟨same ▸ sorted, same ▸ issued⟩
  | @discard index ticket taken =>
      have fewer : (before.used ++ before.held.eraseIdx index).Sublist
          (before.used ++ before.held) :=
        (List.eraseIdx_sublist _ _).append_left _
      exact ⟨sorted.sublist fewer, fun ticket member => issued ticket (fewer.subset member)⟩

theorem InOrder.run {moves : List Move} {final : Dispenser}
    (run : Run Moves .full moves final) (oldest : ∀ move ∈ moves, move.Oldest) : InOrder final :=
  run.invariant InOrder Move.Oldest ⟨List.Pairwise.nil, by simp [Dispenser.full]⟩
    (fun _ _ _ ordered oldest moved => ordered.move oldest moved) oldest

/-- If none is discarded, the tickets are used as they are numbered. -/
theorem InOrder.used_eq {dispenser : Dispenser} (ordered : InOrder dispenser)
    (accounted : Accounted dispenser) (none : dispenser.discarded = []) :
    dispenser.used ++ dispenser.held = List.range dispenser.issued := by
  rw [Accounted, none, List.nil_append] at accounted
  exact List.Perm.eq_of_pairwise (fun _ _ _ _ less greater => absurd (less.trans greater)
    (Nat.lt_irrefl _)) ordered.sorted List.pairwise_lt_range accounted

end TicketDispenser
