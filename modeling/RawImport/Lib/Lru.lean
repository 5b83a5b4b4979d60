import Mathlib.Data.List.Nodup

/-!
# Least recently used keys

A history of touches, latest first, has its distinct keys in the order of
their last touch.  The list that moves every touched key to the front and cuts
at its capacity holds the first of them.
-/

namespace Lru

universe u v

variable {κ : Type u} {ν : Type v} [DecidableEq κ]

/-- The distinct keys by their last touch, latest first. -/
def recent : List κ → List κ
  | [] => []
  | key :: earlier => key :: (recent earlier).filter (· ≠ key)

def kept (capacity : Nat) : List (κ × ν) → List (κ × ν)
  | [] => []
  | touch :: earlier =>
      (touch :: (kept capacity earlier).filter fun entry =>
        entry.1 ≠ touch.1).take capacity

theorem nodup_recent (keys : List κ) : (recent keys).Nodup := by
  induction keys with
  | nil => exact List.nodup_nil
  | cons first keys ih =>
      refine List.nodup_cons.mpr ⟨?_, ih.filter _⟩
      intro member
      simpa using (List.mem_filter.mp member).2

/-- Without one key, a front one element longer is long enough. -/
theorem take_filter_take {keys : List κ} (distinct : keys.Nodup) (key : κ)
    (count : Nat) :
    ((keys.take (count + 1)).filter (· ≠ key)).take count =
      (keys.filter (· ≠ key)).take count := by
  induction keys generalizing count with
  | nil => rfl
  | cons first keys ih =>
      rw [List.nodup_cons] at distinct
      rw [List.take_succ_cons]
      by_cases here : first = key
      · have absent : ∀ other ∈ keys, decide (other ≠ key) = true := by
          intro other member
          refine decide_eq_true fun same => distinct.1 ?_
          rwa [here, ← same]
        have front : ∀ other ∈ keys.take count, decide (other ≠ key) = true :=
          fun other member => absent other (List.mem_of_mem_take member)
        rw [List.filter_cons_of_neg (by simpa using here),
          List.filter_cons_of_neg (by simpa using here),
          List.filter_eq_self.mpr absent, List.filter_eq_self.mpr front,
          List.take_take, Nat.min_self]
      · rw [List.filter_cons_of_pos (by simpa using here),
          List.filter_cons_of_pos (by simpa using here)]
        cases count with
        | zero => rfl
        | succ count =>
            rw [List.take_succ_cons, List.take_succ_cons, ih distinct.2]

theorem keys_kept (capacity : Nat) (history : List (κ × ν)) :
    (kept capacity history).map Prod.fst =
      (recent (history.map Prod.fst)).take capacity := by
  induction history with
  | nil => exact List.take_nil.symm
  | cons touch earlier ih =>
      cases capacity with
      | zero => rw [kept, List.take_zero, List.take_zero, List.map_nil]
      | succ capacity =>
          have filtered : ((kept (capacity + 1) earlier).filter fun entry =>
              entry.1 ≠ touch.1).map Prod.fst =
                ((kept (capacity + 1) earlier).map Prod.fst).filter
                  (· ≠ touch.1) := by
            rw [List.filter_map]
            rfl
          rw [kept, List.take_succ_cons, List.map_cons, List.map_take,
            filtered, ih, take_filter_take (nodup_recent _), List.map_cons,
            recent, List.take_succ_cons]

theorem nodup_keys_kept (capacity : Nat) (history : List (κ × ν)) :
    ((kept capacity history).map Prod.fst).Nodup := by
  rw [keys_kept]
  exact (nodup_recent _).sublist (List.take_sublist _ _)

theorem length_kept_le (capacity : Nat) (history : List (κ × ν)) :
    (kept capacity history).length ≤ capacity := by
  rw [← List.length_map (f := Prod.fst), keys_kept]
  exact List.length_take_le _ _

theorem kept_sublist (capacity : Nat) (history : List (κ × ν)) :
    (kept capacity history).Sublist history := by
  induction history with
  | nil => exact List.Sublist.refl _
  | cons touch earlier ih =>
      refine (List.take_sublist _ _).trans (List.Sublist.cons_cons _ ?_)
      exact List.filter_sublist.trans ih

theorem lookup_of_mem_kept {capacity : Nat} {history : List (κ × ν)}
    {key : κ} {value : ν} (member : (key, value) ∈ kept capacity history) :
    history.lookup key = some value := by
  induction history with
  | nil => cases member
  | cons touch earlier ih =>
      rcases List.mem_cons.mp (List.mem_of_mem_take member) with rfl | old
      · exact List.lookup_cons_self
      · obtain ⟨before, other⟩ := List.mem_filter.mp old
        have different : (key == touch.1) = false := by
          simpa using other
        rw [List.lookup_cons, different]
        exact ih before

end Lru
