import Mathlib.Logic.Relation

/-!
# While loops with a fuel bound

A loop is given by its body, which says for every state whether the loop leaves
or goes round once more.  `run` spends one unit of fuel on each pass.  The rules
below are the usual ones: an invariant for what holds on exit, a variant for
termination, an invariant under which the loop never leaves, and a simulation
for two loops whose passes correspond.
-/

set_option autoImplicit false

namespace WhileLoop

universe u

inductive Pass (State : Type u) where
  | exit (state : State)
  | again (state : State)
  deriving DecidableEq

variable {State : Type u}

def run (body : State → Pass State) : Nat → State → Option State
  | 0, _ => none
  | fuel + 1, state =>
      match body state with
      | .exit final => some final
      | .again next => run body fuel next

def Terminates (body : State → Pass State) (state : State) : Prop :=
  ∃ fuel final, run body fuel state = some final

/-- The states at which a pass of the loop starts. -/
def Reaches (body : State → Pass State) : State → State → Prop :=
  Relation.ReflTransGen fun state next => body state = .again next

theorem run_exit {body : State → Pass State} {state final : State}
    (leaves : body state = .exit final) (fuel : Nat) :
    run body (fuel + 1) state = some final := by
  simp [run, leaves]

theorem run_again {body : State → Pass State} {state next : State}
    (continues : body state = .again next) (fuel : Nat) :
    run body (fuel + 1) state = run body fuel next := by
  simp [run, continues]

/-- The invariant rule. -/
theorem run_invariant {body : State → Pass State} (Invariant Post : State → Prop)
    (preserved : ∀ state next, Invariant state → body state = .again next → Invariant next)
    (established : ∀ state final, Invariant state → body state = .exit final → Post final)
    {fuel : Nat} {state final : State} (initially : Invariant state)
    (result : run body fuel state = some final) : Post final := by
  induction fuel generalizing state with
  | zero => simp [run] at result
  | succ fuel ih =>
      cases pass : body state with
      | exit last =>
          rw [run_exit pass] at result
          cases Option.some.inj result
          exact established state _ initially pass
      | again next =>
          rw [run_again pass] at result
          exact ih (preserved state next initially pass) result

/-- The variant rule: a measure that every further pass lowers bounds the fuel. -/
theorem run_variant {body : State → Pass State} (Invariant : State → Prop)
    (measure : State → Nat)
    (lowered : ∀ state next, Invariant state → body state = .again next →
      Invariant next ∧ measure next < measure state)
    {fuel : Nat} {state : State} (initially : Invariant state) (enough : measure state < fuel) :
    ∃ final, run body fuel state = some final := by
  induction fuel generalizing state with
  | zero => omega
  | succ fuel ih =>
      cases pass : body state with
      | exit final => exact ⟨final, run_exit pass fuel⟩
      | again next =>
          obtain ⟨still, smaller⟩ := lowered state next initially pass
          rw [run_again pass]
          exact ih still (by omega)

/-- The divergence rule: an invariant under which every pass goes round again. -/
theorem run_diverges {body : State → Pass State} (Invariant : State → Prop)
    (forever : ∀ state, Invariant state → ∃ next, body state = .again next ∧ Invariant next)
    (fuel : Nat) {state : State} (initially : Invariant state) : run body fuel state = none := by
  induction fuel generalizing state with
  | zero => rfl
  | succ fuel ih =>
      obtain ⟨next, pass, still⟩ := forever state initially
      rw [run_again pass]
      exact ih still

/-- Two passes that leave their loops together or go round together. -/
inductive Pass.Rel {Other : Type u} (Related : State → Other → Prop) :
    Pass State → Pass Other → Prop where
  | exit {state : State} {other : Other} (related : Related state other) :
      Pass.Rel Related (.exit state) (.exit other)
  | again {state : State} {other : Other} (related : Related state other) :
      Pass.Rel Related (.again state) (.again other)

/-- The simulation rule. -/
theorem run_related {Other : Type u} {body : State → Pass State} {otherBody : Other → Pass Other}
    (Related : State → Other → Prop)
    (simulated : ∀ state other, Related state other →
      Pass.Rel Related (body state) (otherBody other))
    (fuel : Nat) {state : State} {other : Other} (initially : Related state other) :
    Option.Rel Related (run body fuel state) (run otherBody fuel other) := by
  induction fuel generalizing state other with
  | zero => exact .none
  | succ fuel ih =>
      have pass := simulated state other initially
      generalize first : body state = left at pass
      generalize second : otherBody other = right at pass
      cases pass with
      | exit related =>
          rw [run_exit first, run_exit second]
          exact .some related
      | again related =>
          rw [run_again first, run_again second]
          exact ih related

theorem run_congr {body other : State → Pass State} (Invariant : State → Prop)
    (agree : ∀ state, Invariant state → body state = other state)
    (preserved : ∀ state next, Invariant state → other state = .again next → Invariant next)
    (fuel : Nat) {state : State} (initially : Invariant state) :
    run body fuel state = run other fuel state := by
  induction fuel generalizing state with
  | zero => rfl
  | succ fuel ih =>
      have same := agree state initially
      cases pass : other state with
      | exit final => rw [run_exit pass, run_exit (same.trans pass)]
      | again next =>
          rw [run_again pass, run_again (same.trans pass)]
          exact ih (preserved state next initially pass)

theorem not_terminates {body : State → Pass State} {state : State}
    (hangs : ∀ fuel, run body fuel state = none) : ¬ Terminates body state := by
  rintro ⟨fuel, final, result⟩
  rw [hangs fuel] at result
  exact absurd result (by simp)

theorem terminates_of_reaches {body : State → Pass State} {state later : State}
    (reached : Reaches body state later) (ends : Terminates body state) :
    Terminates body later := by
  induction reached with
  | refl => exact ends
  | tail _ pass ih =>
      obtain ⟨fuel, final, result⟩ := ih
      cases fuel with
      | zero => simp [run] at result
      | succ fuel => exact ⟨fuel, final, by rwa [run_again pass] at result⟩

end WhileLoop
