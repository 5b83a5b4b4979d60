import Mathlib.Algebra.BigOperators.Group.List.Basic
import Mathlib.Algebra.Ring.Int.Defs
import Mathlib.Order.Lattice
import Mathlib.Data.List.Basic

/-!
# Cumulative histograms

An observation is counted in the bucket of the first edge that is not below it.
The running sums of the buckets then count the observations up to each edge,
provided the edges rise.  Where the sums are labelled by other limits, they are
right exactly when no observation lies between an edge and its limit.
-/

namespace Histogram

universe u

variable {α : Type u} [LinearOrder α]

/-- The first edge that is not below the observation; the last bucket is open. -/
def place : List α → α → Nat
  | [], _ => 0
  | edge :: edges, seconds =>
      if edge < seconds then place edges seconds + 1 else 0

def add (edges : List α) (buckets : List Int) (seconds : α) : List Int :=
  buckets.modify (place edges seconds) (· + 1)

/-- An observation that the running sums put on the wrong side of a limit. -/
def Misplaced (edges limits : List α) (seconds : α) : Prop :=
  ∃ pair ∈ edges.zip limits, pair.1 < seconds ∧ seconds ≤ pair.2

variable {edges limits : List α} {seconds : α}

theorem place_le (edges : List α) (seconds : α) :
    place edges seconds ≤ edges.length := by
  induction edges with
  | nil => exact Nat.le_refl 0
  | cons edge edges ih =>
      unfold place
      split
      · exact Nat.succ_le_succ ih
      · exact Nat.zero_le _

/-- With rising edges, an observation is counted up to an edge exactly when it
does not exceed it. -/
theorem place_le_iff (rising : edges.Pairwise (· ≤ ·)) {index : Nat}
    {edge : α} (listed : edges[index]? = some edge) :
    place edges seconds ≤ index ↔ seconds ≤ edge := by
  induction edges generalizing index with
  | nil => cases listed
  | cons first edges ih =>
      obtain ⟨below, rising⟩ := List.pairwise_cons.mp rising
      unfold place
      cases index with
      | zero =>
          cases listed
          split
          · rename_i above
            constructor
            · intro counted
              cases counted
            · intro le
              exact absurd above (not_lt.mpr le)
          · rename_i within
            simpa using within
      | succ index =>
          split
          · rw [Nat.succ_le_succ_iff]
            exact ih rising listed
          · rename_i within
            have member : edge ∈ edges := List.mem_of_getElem? listed
            have le : seconds ≤ edge :=
              (not_lt.mp within).trans (below edge member)
            simp [le]

theorem sum_modify (buckets : List Int) {bucket : Nat}
    (inside : bucket < buckets.length) (length : Nat) :
    ((buckets.modify bucket (· + 1)).take length).sum =
      (buckets.take length).sum + if bucket < length then 1 else 0 := by
  induction buckets generalizing bucket length with
  | nil => cases inside
  | cons first buckets ih =>
      cases length with
      | zero => simp
      | succ length =>
          cases bucket with
          | zero =>
              simp
              omega
          | succ bucket =>
              have later := ih (Nat.lt_of_succ_lt_succ inside) length
              simp only [List.modify_succ_cons, List.take_succ_cons,
                List.sum_cons, later, Nat.succ_lt_succ_iff]
              omega

theorem sum_take_foldl (edges : List α) (observations : List α)
    {buckets : List Int} (room : buckets.length = edges.length + 1)
    (length : Nat) :
    ((observations.foldl (add edges) buckets).take length).sum =
      (buckets.take length).sum +
        observations.countP fun seconds => place edges seconds < length := by
  induction observations generalizing buckets with
  | nil => simp
  | cons seconds observations ih =>
      have inside : place edges seconds < buckets.length := by
        have le := place_le edges seconds
        omega
      have room' : (add edges buckets seconds).length = edges.length + 1 := by
        rw [add, List.length_modify, room]
      rw [List.foldl_cons, ih room', add, sum_modify buckets inside,
        List.countP_cons]
      simp only [decide_eq_true_eq]
      split <;> push_cast <;> omega

theorem length_foldl_add (edges : List α) (observations : List α)
    (buckets : List Int) :
    (observations.foldl (add edges) buckets).length = buckets.length := by
  induction observations generalizing buckets with
  | nil => rfl
  | cons seconds observations ih =>
      rw [List.foldl_cons, ih, add, List.length_modify]

/-- Two bounds of which one is lower count the same observations exactly when
none lies between them. -/
theorem countP_eq_iff_none_between {edge limit : α} (le : edge ≤ limit)
    (observations : List α) :
    (observations.countP (· ≤ edge) = observations.countP (· ≤ limit)) ↔
      ∀ seconds ∈ observations, ¬(edge < seconds ∧ seconds ≤ limit) := by
  induction observations with
  | nil => simp
  | cons seconds observations ih =>
      have monotone : observations.countP (· ≤ edge) ≤
          observations.countP (· ≤ limit) := by
        apply List.countP_mono_left
        intro seconds _ within
        have within : seconds ≤ edge := by simpa using within
        simpa using within.trans le
      rw [List.countP_cons, List.countP_cons, List.forall_mem_cons, ← ih]
      simp only [decide_eq_true_eq]
      by_cases withinEdge : seconds ≤ edge
      · have withinLimit := withinEdge.trans le
        have notAbove : ¬edge < seconds := not_lt.mpr withinEdge
        simp [withinEdge, withinLimit, notAbove]
      · by_cases withinLimit : seconds ≤ limit
        · have above : edge < seconds := not_le.mp withinEdge
          simp only [withinEdge, withinLimit, above, if_true, if_false]
          constructor
          · intro equal
            omega
          · intro none
            exact absurd ⟨trivial, trivial⟩ none.1
        · simp [withinEdge, withinLimit]

theorem exists_between {first : α × α} {rest : List (α × α)} {last : α}
    (chained : (first :: rest).IsChain fun pair next => next.1 ≤ pair.2)
    (ends : last ≤ ((first :: rest).getLast (List.cons_ne_nil _ _)).2)
    (above : first.1 < seconds) (within : seconds ≤ last) :
    ∃ pair ∈ first :: rest, pair.1 < seconds ∧ seconds ≤ pair.2 := by
  induction rest generalizing first with
  | nil =>
      exact ⟨first, List.mem_cons_self, above, within.trans ends⟩
  | cons next rest ih =>
      by_cases here : seconds ≤ first.2
      · exact ⟨first, List.mem_cons_self, above, here⟩
      · obtain ⟨reaches, later⟩ := List.isChain_cons_cons.mp chained
        have next_above : next.1 < seconds :=
          reaches.trans_lt (not_le.mp here)
        rw [List.getLast_cons_cons] at ends
        obtain ⟨pair, member, between⟩ := ih later ends next_above
        exact ⟨pair, List.mem_cons_of_mem _ member, between⟩

theorem misplaced_iff {first : α × α} {rest : List (α × α)} {last : α}
    (zipped : edges.zip limits = first :: rest)
    (chained : (first :: rest).IsChain fun pair next => next.1 ≤ pair.2)
    (ends : last ≤ ((first :: rest).getLast (List.cons_ne_nil _ _)).2)
    (bounds : ∀ pair ∈ first :: rest, first.1 ≤ pair.1 ∧ pair.2 ≤ last) :
    Misplaced edges limits seconds ↔
      first.1 < seconds ∧ seconds ≤ last := by
  unfold Misplaced
  rw [zipped]
  constructor
  · intro misplaced
    obtain ⟨pair, member, above, within⟩ := misplaced
    obtain ⟨lowest, highest⟩ := bounds pair member
    exact ⟨lowest.trans_lt above, within.trans highest⟩
  · intro between
    exact exists_between chained ends between.1 between.2

end Histogram
