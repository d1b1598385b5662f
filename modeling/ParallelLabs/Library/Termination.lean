import Mathlib.Algebra.BigOperators.Fin
import Mathlib.Algebra.Order.BigOperators.Group.Finset
import ParallelLabs.Library.Runs

/-!
# Runs that end

A measure that every step of a run decreases bounds the length of the runs
(`Run.length_add_le`), and every run goes on to a state that has no next step
(`Run.exists_stuck`). The measure of a system of parties is the sum of the weights of
its parties; a step of one party decreases it if it decreases the weight of that
party (`sum_update_lt`).
-/

set_option autoImplicit false

namespace ParallelLabs.Library

section Measures

variable {State Event : Type*} {step : State → Event → State → Prop} {start : State → Prop}
  {events : List Event} {s : State}

/-- Every step of a run decreases the measure. -/
def Decreasing (step : State → Event → State → Prop) (start : State → Prop)
    (measure : State → Nat) : Prop :=
  ∀ ⦃past s event t⦄, Run step start past s → step s event t → measure t < measure s

variable {measure : State → Nat}

/-- **A measure bounds the length of a run.** -/
theorem Run.length_add_le (decreasing : Decreasing step start measure)
    (run : Run step start events s) :
    ∃ first, start first ∧ events.length + measure s ≤ measure first := by
  induction run with
  | @start s starts => exact ⟨s, starts, Nat.le_of_eq (Nat.zero_add _)⟩
  | snoc run next ih =>
      obtain ⟨first, starts, bound⟩ := ih
      have less := decreasing run next
      refine ⟨first, starts, ?_⟩
      rw [List.length_append, List.length_singleton]
      omega

/-- **Every run goes on to a state that has no next step.** -/
theorem Run.exists_stuck (decreasing : Decreasing step start measure)
    (run : Run step start events s) :
    ∃ later t, Path step s later t ∧ Run step start (events ++ later) t ∧
      ∀ event u, ¬ step t event u := by
  -- On the measure of the state reached.
  induction bound : measure s using Nat.strong_induction_on generalizing events s with
  | _ m ih =>
      by_cases more : ∃ event t, step s event t
      · obtain ⟨event, t, next⟩ := more
        obtain ⟨later, u, path, run', stuck⟩ :=
          ih (measure t) (bound ▸ decreasing run next) (run.snoc next) rfl
        refine ⟨event :: later, u, .cons next path, ?_, stuck⟩
        rwa [List.append_cons]
      · refine ⟨[], s, .done s, by rwa [List.append_nil], fun event u next => ?_⟩
        exact more ⟨event, u, next⟩

/-- The measure along the later steps of a run. -/
theorem Decreasing.length_add_le (decreasing : Decreasing step start measure)
    (run : Run step start events s) {later : List Event} {t : State} (path : Path step s later t) :
    later.length + measure t ≤ measure s := by
  induction path generalizing events with
  | done s => exact Nat.le_of_eq (Nat.zero_add _)
  | cons next _ ih =>
      have less := decreasing run next
      have rest := ih (run.snoc next)
      rw [List.length_cons]
      omega

end Measures

section Parties

variable {Party State : Type*} [Fintype Party] [DecidableEq Party]

/-- **A step of one party decreases the sum** if it decreases the party's weight. -/
theorem sum_update_lt (weight : Party → State → Nat) (states : Party → State) (i : Party)
    {state : State} (less : weight i state < weight i (states i)) :
    ∑ j, weight j (Function.update states i state j) < ∑ j, weight j (states j) := by
  refine Finset.sum_lt_sum (fun j _ => ?_) ⟨i, Finset.mem_univ i, ?_⟩
  · by_cases same : j = i
    · subst same
      rw [Function.update_self]
      exact Nat.le_of_lt less
    · rw [Function.update_of_ne same]
  · rwa [Function.update_self]

/-- The sum after a change of one party. -/
theorem sum_add_of_ne (weight weight' : Party → Nat) (i : Party)
    (others : ∀ j, j ≠ i → weight' j = weight j) :
    ∑ j, weight' j + weight i = ∑ j, weight j + weight' i := by
  have split : weight i + ∑ j ∈ Finset.univ.erase i, weight j = ∑ j, weight j :=
    Finset.add_sum_erase _ weight (Finset.mem_univ i)
  have split' : weight' i + ∑ j ∈ Finset.univ.erase i, weight' j = ∑ j, weight' j :=
    Finset.add_sum_erase _ weight' (Finset.mem_univ i)
  have rest : ∑ j ∈ Finset.univ.erase i, weight' j = ∑ j ∈ Finset.univ.erase i, weight j :=
    Finset.sum_congr rfl fun j member => others j (Finset.ne_of_mem_erase member)
  omega

/-- A bound on the weights bounds their sum. -/
theorem sum_le_mul {n bound : Nat} (weight : Fin n → Nat) (each : ∀ i, weight i ≤ bound) :
    ∑ i, weight i ≤ n * bound :=
  (Finset.sum_le_card_nsmul Finset.univ weight bound fun i _ => each i).trans_eq
    (by rw [Finset.card_univ, Fintype.card_fin, smul_eq_mul])

end Parties

end ParallelLabs.Library
