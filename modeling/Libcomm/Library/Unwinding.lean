import Mathlib.Data.List.Induction

/-!
# Actions without influence

A machine takes actions one after the other, and an observer sees a part of its
state.  Some of the actions are deleted from a run.  The observer can never tell,
after no part of the run, exactly when each deleted action goes unseen at the
moment it is taken.  What it takes is a relation on the states that the machine
respects and in which an unseen action leaves nothing behind.
-/

set_option autoImplicit false

namespace Unwinding

variable {State Action View : Type*}

/-- A relation between states that no observer will tell apart. -/
structure Unwinds (step : State → Action → State) (view : State → View)
    (Related : State → State → Prop) : Prop where
  equivalence : Equivalence Related
  view_eq : ∀ {first second}, Related first second → view first = view second
  consistent : ∀ {first second} (action : Action), Related first second →
    Related (step first action) (step second action)
  unseen : ∀ {state} {action : Action}, view (step state action) = view state →
    Related (step state action) state

def NoneSeen (step : State → Action → State) (view : State → View) (own : Action → Bool)
    (start : State) (actions : List Action) : Prop :=
  ∀ front action back, actions = front ++ action :: back → own action = false →
    view (step (front.foldl step start) action) = view (front.foldl step start)

variable {step : State → Action → State} {view : State → View} {own : Action → Bool}
  {start : State} {actions : List Action}

theorem NoneSeen.front {front back : List Action}
    (none : NoneSeen step view own start (front ++ back)) :
    NoneSeen step view own start front := by
  intro earlier action later whole deleted
  refine none earlier action (later ++ back) ?_ deleted
  rw [whole, List.append_assoc, List.cons_append]

/-- The run without the deleted actions stays related to the whole run. -/
theorem Unwinds.purged {Related : State → State → Prop} (unwinds : Unwinds step view Related)
    (none : NoneSeen step view own start actions) :
    Related ((actions.filter own).foldl step start) (actions.foldl step start) := by
  induction actions using List.reverseRecOn with
  | nil => exact unwinds.equivalence.refl start
  | append_singleton front action ih =>
      have earlier := ih none.front
      rw [List.filter_append, List.foldl_append, List.foldl_append]
      cases kept : own action with
      | true =>
          rw [List.filter_cons_of_pos kept]
          exact unwinds.consistent action earlier
      | false =>
          rw [List.filter_cons_of_neg (by rw [kept]; exact Bool.false_ne_true)]
          have unseen := unwinds.unseen (none front action [] rfl kept)
          exact unwinds.equivalence.trans earlier (unwinds.equivalence.symm unseen)

/-- **When deleting actions is never seen.** -/
theorem Unwinds.purge_unseen_iff {Related : State → State → Prop}
    (unwinds : Unwinds step view Related) (own : Action → Bool) (start : State)
    (actions : List Action) :
    (∀ front, front <+: actions →
      view ((front.filter own).foldl step start) = view (front.foldl step start)) ↔
    NoneSeen step view own start actions := by
  constructor
  · intro never front action back whole deleted
    have before := never front ⟨action :: back, whole.symm⟩
    have after := never (front ++ [action]) ⟨back, by simp [whole]⟩
    rw [List.filter_append, List.filter_cons_of_neg (by rw [deleted]; exact Bool.false_ne_true),
      List.filter_nil, List.append_nil, before, List.foldl_append] at after
    exact after.symm
  · rintro none front ⟨back, rfl⟩
    exact unwinds.view_eq (unwinds.purged none.front)

end Unwinding
