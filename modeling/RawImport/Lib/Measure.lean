import Mathlib.Algebra.BigOperators.Pi
import RawImport.Lib.Run

/-!
# Measures of runs

A measure that no step raises and that some steps lower bounds how often those
steps occur in a run.  The measure of a family of parties is a sum that a step
of one party changes in one place.
-/

namespace Transition

universe u v

section Sums

variable {ι : Type u} [Fintype ι] [DecidableEq ι]

theorem sum_update {β : Type v} {γ : Type*} [AddCommMonoid γ] (weight : β → γ)
    (family : ι → β) (place : ι) (value : β) :
    ∑ i, weight (Function.update family place value i) +
        weight (family place) =
      ∑ i, weight (family i) + weight value := by
  have inside : place ∈ (Finset.univ : Finset ι) := Finset.mem_univ _
  have others : ∑ i ∈ Finset.univ.erase place,
      weight (Function.update family place value i) =
      ∑ i ∈ Finset.univ.erase place, weight (family i) := by
    apply Finset.sum_congr rfl
    intro i member
    rw [Function.update_of_ne (Finset.ne_of_mem_erase member)]
  rw [← Finset.add_sum_erase _ _ inside, ← Finset.add_sum_erase
    (f := fun i => weight (family i)) _ inside, others, Function.update_self]
  ac_rfl

end Sums

section Rules

variable {σ : Type u} {α : Type v} {step : σ → α → Option σ}

/-- Ranking rule: steps that lower a measure are at most as many as the
measure at the start, when an invariant keeps every other step from raising
it. -/
theorem countP_add_measure_le (invariant : σ → Prop) (measure : σ → Nat)
    (kind : α → Bool)
    (preserved : ∀ state action next, invariant state →
      step state action = some next → invariant next)
    (lowers : ∀ state action next, invariant state →
      step state action = some next →
        measure next + (if kind action then 1 else 0) ≤ measure state)
    {start final : σ} {actions : List α} (holds : invariant start)
    (reached : run step start actions = some final) :
    measure final + actions.countP kind ≤ measure start := by
  induction actions generalizing start with
  | nil =>
      cases reached
      exact Nat.le_refl _
  | cons action actions ih =>
      obtain ⟨next, taken, later⟩ := run_cons_eq_some_iff.mp reached
      have rest := ih (preserved start action next holds taken) later
      have here := lowers start action next holds taken
      rw [List.countP_cons]
      omega

/-- Progress rule: a run reaches the goal when away from it some allowed step
lowers a measure. -/
theorem exists_run_of_descent (invariant goal : σ → Prop) (measure : σ → Nat)
    (allowed : α → Prop)
    (progress : ∀ state, invariant state → ¬goal state →
      ∃ action next, allowed action ∧ step state action = some next ∧
        invariant next ∧ measure next < measure state)
    {start : σ} (holds : invariant start) :
    ∃ actions final, (∀ action ∈ actions, allowed action) ∧
      run step start actions = some final ∧ invariant final ∧
      goal final := by
  induction bound : measure start using Nat.strong_induction_on
    generalizing start with
  | _ bound' ih =>
      by_cases there : goal start
      · exact ⟨[], start, by simp, rfl, holds, there⟩
      · obtain ⟨action, next, allows, taken, kept, lower⟩ :=
          progress start holds there
        obtain ⟨actions, final, all, reached, rest⟩ :=
          ih (measure next) (bound ▸ lower) kept rfl
        refine ⟨action :: actions, final, ?_, ?_, rest⟩
        · intro other member
          rcases List.mem_cons.mp member with rfl | later
          · exact allows
          · exact all other later
        · exact run_cons_eq_some_iff.mpr ⟨next, taken, reached⟩

end Rules

end Transition
