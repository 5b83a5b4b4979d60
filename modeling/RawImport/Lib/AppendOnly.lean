import RawImport.Lib.Run

/-!
# Append-only tables

A table whose rows stay where they are and change within a relation, while new
rows come behind them.
-/

namespace Transition

universe u v w

/-- Every row is still at its place, related to what it was, and the rows
behind them are new ones. -/
inductive Grows {ρ : Type w} (related : ρ → ρ → Prop) (fresh : ρ → Prop) :
    List ρ → List ρ → Prop
  | added {rows : List ρ} (new : ∀ row ∈ rows, fresh row) :
      Grows related fresh [] rows
  | kept {row row' : ρ} {rows rows' : List ρ} (same : related row row')
      (rest : Grows related fresh rows rows') :
      Grows related fresh (row :: rows) (row' :: rows')

namespace Grows

variable {ρ : Type w} {related : ρ → ρ → Prop} {fresh : ρ → Prop}
  {before middle after : List ρ}

theorem map_append (change : ρ → ρ) {rows added : List ρ}
    (changes : ∀ row, related row (change row))
    (new : ∀ row ∈ added, fresh row) :
    Grows related fresh rows (rows.map change ++ added) := by
  induction rows with
  | nil => exact .added new
  | cons row rows ih => exact .kept (changes row) ih

theorem refl (reflexive : ∀ row, related row row) (rows : List ρ) :
    Grows related fresh rows rows := by
  have unchanged : Grows related fresh rows (rows.map id ++ []) :=
    map_append id reflexive (List.forall_mem_nil _)
  rwa [List.map_id, List.append_nil] at unchanged

theorem mem_fresh (stays : ∀ row next, fresh row → related row next →
      fresh next)
    (grows : Grows related fresh before after)
    (all : ∀ row ∈ before, fresh row) : ∀ row ∈ after, fresh row := by
  induction grows with
  | added new => exact new
  | kept same rest ih =>
      rw [List.forall_mem_cons] at all ⊢
      exact ⟨stays _ _ all.1 same, ih all.2⟩

theorem trans
    (transitive : ∀ first second third, related first second →
      related second third → related first third)
    (stays : ∀ row next, fresh row → related row next → fresh next)
    (first : Grows related fresh before middle)
    (second : Grows related fresh middle after) :
    Grows related fresh before after := by
  induction first generalizing after with
  | added new => exact .added (second.mem_fresh stays new)
  | kept same rest ih =>
      cases second with
      | kept same' rest' =>
          exact .kept (transitive _ _ _ same same') (ih rest')

theorem length_le (grows : Grows related fresh before after) :
    before.length ≤ after.length := by
  induction grows with
  | added => exact Nat.zero_le _
  | kept same rest ih => exact Nat.succ_le_succ ih

theorem countP_le {counted : ρ → Bool}
    (keeps : ∀ row next, related row next → counted row = true →
      counted next = true)
    (grows : Grows related fresh before after) :
    before.countP counted ≤ after.countP counted := by
  induction grows with
  | added => exact Nat.zero_le _
  | @kept row row' rows rows' same rest ih =>
      rw [List.countP_cons, List.countP_cons]
      cases here : counted row with
      | true =>
          rw [keeps row row' same here]
          exact Nat.add_le_add_right ih _
      | false => exact Nat.le_trans ih (Nat.le_add_right _ _)

/-- What no change touches and no new row has is counted the same. -/
theorem countP_eq {counted : ρ → Bool}
    (keeps : ∀ row next, related row next → counted next = counted row)
    (none : ∀ row, fresh row → counted row = false)
    (grows : Grows related fresh before after) :
    after.countP counted = before.countP counted := by
  induction grows with
  | added new =>
      rw [List.countP_nil, List.countP_eq_zero]
      intro row member
      rw [none row (new row member)]
      exact Bool.false_ne_true
  | kept same rest ih =>
      rw [List.countP_cons, List.countP_cons, ih, keeps _ _ same]

end Grows

section Rule

variable {σ : Type u} {α : Type v} {ρ : Type w} {step : σ → α → Option σ}
  {related : ρ → ρ → Prop} {fresh : ρ → Prop}

theorem grows_of_run (invariant : σ → Prop) (table : σ → List ρ)
    (reflexive : ∀ row, related row row)
    (transitive : ∀ first second third, related first second →
      related second third → related first third)
    (stays : ∀ row next, fresh row → related row next → fresh next)
    (preserved : ∀ state action next, invariant state →
      step state action = some next → invariant next)
    (grows : ∀ state action next, invariant state →
      step state action = some next →
        Grows related fresh (table state) (table next))
    {start final : σ} {actions : List α} (holds : invariant start)
    (reached : run step start actions = some final) :
    Grows related fresh (table start) (table final) := by
  induction actions generalizing start with
  | nil =>
      cases reached
      exact .refl reflexive _
  | cons action actions ih =>
      obtain ⟨next, taken, later⟩ := run_cons_eq_some_iff.mp reached
      have here := grows start action next holds taken
      have rest := ih (preserved start action next holds taken) later
      exact here.trans transitive stays rest

end Rule

end Transition
