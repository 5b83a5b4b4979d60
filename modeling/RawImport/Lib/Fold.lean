import Mathlib.Logic.Function.Basic
import Mathlib.Data.List.Basic

/-!
# Folds that notice a single change

A left fold whose step is injective in the running value and in the element
tells two lists apart that differ at one position.
-/

namespace Fold

universe u v

variable {α : Type u} {σ : Type v}

/-- Lists of one length that differ at exactly one position. -/
def DifferOnce (first second : List α) : Prop :=
  first.length = second.length ∧
    ∃! position : Nat, first[position]? ≠ second[position]?

/-- What differs stands between a common beginning and a common end. -/
theorem DifferOnce.decompose {first second : List α}
    (differ : DifferOnce first second) :
    ∃ front a b back, a ≠ b ∧ first = front ++ a :: back ∧
      second = front ++ b :: back := by
  obtain ⟨sameLength, position, different, only⟩ := differ
  have inside : position < first.length := by
    by_contra outside
    apply different
    rw [List.getElem?_eq_none (by omega), List.getElem?_eq_none (by omega)]
  have inside' : position < second.length := sameLength ▸ inside
  have same : ∀ other : Nat, other ≠ position →
      first[other]? = second[other]? := by
    intro other elsewhere
    by_contra differs
    exact elsewhere (only other differs)
  have front : first.take position = second.take position := by
    apply List.ext_getElem?
    intro other
    simp only [List.getElem?_take]
    split
    · exact same other (by omega)
    · rfl
  have back : first.drop (position + 1) = second.drop (position + 1) := by
    apply List.ext_getElem?
    intro other
    simp only [List.getElem?_drop]
    exact same _ (by omega)
  refine ⟨first.take position, first[position], second[position],
    first.drop (position + 1), ?_, ?_, ?_⟩
  · intro equal
    apply different
    rw [List.getElem?_eq_getElem inside, List.getElem?_eq_getElem inside',
      equal]
  · rw [← List.drop_eq_getElem_cons inside, List.take_append_drop]
  · rw [front, back, ← List.drop_eq_getElem_cons inside',
      List.take_append_drop]

theorem foldl_injective {step : σ → α → σ}
    (injective : ∀ element, Function.Injective fun state => step state element)
    (elements : List α) :
    Function.Injective fun state => elements.foldl step state := by
  induction elements with
  | nil => exact fun _ _ equal => equal
  | cons element elements ih =>
      intro state other equal
      exact injective element (ih equal)

/-- Induction over the common end, from the step at the position that
differs. -/
theorem foldl_ne_of_differOnce {step : σ → α → σ}
    (injectiveState : ∀ element,
      Function.Injective fun state => step state element)
    (injectiveElement : ∀ state, Function.Injective (step state))
    {first second : List α} (differ : DifferOnce first second) (start : σ) :
    first.foldl step start ≠ second.foldl step start := by
  obtain ⟨front, a, b, back, different, rfl, rfl⟩ := differ.decompose
  intro equal
  rw [List.foldl_append, List.foldl_append] at equal
  have stepEqual := foldl_injective injectiveState back equal
  exact different (injectiveElement _ stepEqual)

end Fold
