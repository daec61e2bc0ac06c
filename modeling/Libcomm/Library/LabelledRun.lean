import Mathlib.Data.List.Basic

/-!
# Runs of a labelled transition system

A system is a relation between a state, a label and a next state.  `Run` chains
its steps and keeps the list of labels, the trace.  Two rules derive what holds
after a run: `Run.history` relates the state that is reached to the whole trace,
`Run.invariant` follows the states through a trace of allowed labels.
`Run.split` cuts a run at one of its labels.
-/

set_option autoImplicit false

namespace LabelledRun

variable {State Label : Type} (step : State → Label → State → Prop)

inductive Run (first : State) : List Label → State → Prop where
  | nil : Run first [] first
  | snoc {labels : List Label} {label : Label} {middle final : State}
      (before : Run first labels middle) (last : step middle label final) :
      Run first (labels ++ [label]) final

theorem snoc_eq_append_cons {labels front back : List Label} {last label : Label}
    (whole : labels ++ [last] = front ++ label :: back) :
    (back = [] ∧ labels = front ∧ last = label) ∨
      ∃ inner, back = inner ++ [last] ∧ labels = front ++ label :: inner := by
  rcases List.eq_nil_or_concat back with rfl | ⟨inner, latest, rfl⟩
  · obtain ⟨labelsEq, lastEq⟩ := List.append_inj' whole rfl
    exact Or.inl ⟨rfl, labelsEq, List.head_eq_of_cons_eq lastEq⟩
  · rw [List.concat_eq_append, ← List.cons_append, ← List.append_assoc] at whole
    obtain ⟨labelsEq, lastEq⟩ := List.append_inj' whole rfl
    cases List.head_eq_of_cons_eq lastEq
    exact Or.inr ⟨inner, List.concat_eq_append, labelsEq⟩

variable {step}

namespace Run

/-- The history rule: what every step adds to a trace. -/
theorem history {first : State} (History : State → List Label → Prop)
    (initially : History first [])
    (extended : ∀ state label next trace, History state trace → step state label next →
      History next (trace ++ [label]))
    {trace : List Label} {final : State} (run : Run step first trace final) :
    History final trace := by
  induction run with
  | nil => exact initially
  | snoc _ last ih => exact extended _ _ _ _ ih last

/-- The invariant rule, for traces of allowed labels. -/
theorem invariant {first : State} (Invariant : State → Prop) (Allowed : Label → Prop)
    (initially : Invariant first)
    (preserved : ∀ state label next, Invariant state → Allowed label → step state label next →
      Invariant next)
    {trace : List Label} {final : State} (run : Run step first trace final)
    (allowed : ∀ label ∈ trace, Allowed label) : Invariant final := by
  induction run with
  | nil => exact initially
  | snoc _ last ih =>
      have before := ih fun label member => allowed label (List.mem_append_left _ member)
      exact preserved _ _ _ before (allowed _ (List.mem_append_right _ List.mem_cons_self)) last

theorem eq_of_nil {first final : State} (run : Run step first [] final) : final = first := by
  generalize whole : ([] : List Label) = trace at run
  cases run with
  | nil => rfl
  | snoc _ _ => simp at whole

theorem split {first final : State} {front back : List Label} {label : Label}
    (run : Run step first (front ++ label :: back) final) :
    ∃ middle next, Run step first front middle ∧ step middle label next ∧
      Run step next back final := by
  generalize whole : front ++ label :: back = trace at run
  induction run generalizing back with
  | nil => simp at whole
  | @snoc labels last middle final before lastStep ih =>
      rcases snoc_eq_append_cons whole.symm with ⟨rfl, rfl, rfl⟩ | ⟨inner, rfl, parts⟩
      · exact ⟨middle, final, before, lastStep, .nil⟩
      · obtain ⟨early, next, beforeLabel, labelStep, afterLabel⟩ := ih parts.symm
        exact ⟨early, next, beforeLabel, labelStep, .snoc afterLabel lastStep⟩

theorem uncons {first final : State} {label : Label} {back : List Label}
    (run : Run step first (label :: back) final) :
    ∃ next, step first label next ∧ Run step next back final := by
  obtain ⟨middle, next, before, labelStep, after⟩ := @split _ _ _ _ _ [] back label run
  cases before.eq_of_nil
  exact ⟨next, labelStep, after⟩

end Run

end LabelledRun
