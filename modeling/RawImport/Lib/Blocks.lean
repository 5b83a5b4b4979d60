import Mathlib.Data.List.Basic
import Mathlib.Data.List.TakeDrop
import Mathlib.Logic.Function.Basic

/-!
# Input absorbed block by block

An input is read in blocks of one size until a block comes short.  The read of
a block can fault and then delivers a beginning of it at most.  Whatever
absorbs its input piecewise ends up where it would with everything that the
reads have delivered, in one piece.
-/

namespace Blocks

universe u v

variable {α : Type u} {σ : Type v}

/-- A running value that takes its input in pieces of any length. -/
structure Absorber (σ : Type v) (α : Type u) where
  absorb : σ → List α → σ
  absorb_nil : ∀ state, absorb state [] = state
  absorb_append : ∀ state front back,
    absorb (absorb state front) back = absorb state (front ++ back)

variable (size : Nat) (faults : Nat → Option Nat)

/-- What all reads deliver: everything before the first fault, with what the
faulting read itself still delivers. -/
def delivered (input : List α) : List α :=
  match (List.range (input.length / size + 1)).findSome? fun block =>
    (faults block).map fun kept => block * size + min kept size with
  | some length => input.take length
  | none => input

theorem delivered_prefix (input : List α) :
    delivered size faults input <+: input := by
  unfold delivered
  split
  · exact List.take_prefix _ _
  · exact List.prefix_refl _

theorem delivered_of_none {input : List α}
    (sound : ∀ block ≤ input.length / size, faults block = none) :
    delivered size faults input = input := by
  have nowhere : (List.range (input.length / size + 1)).findSome?
      (fun block =>
        (faults block).map fun kept => block * size + min kept size) =
      none := by
    rw [List.findSome?_eq_none_iff]
    intro block inRange
    rw [sound block (Nat.lt_succ_iff.mp (List.mem_range.mp inRange))]
    rfl
  rw [delivered, nowhere]

def piece (fault : Option Nat) (input : List α) : List α :=
  match fault with
  | some kept => (input.take size).take kept
  | none => input.take size

theorem length_piece_le (fault : Option Nat) (input : List α) :
    (piece size fault input).length ≤ size := by
  cases fault with
  | none => exact List.length_take_le _ _
  | some kept =>
      exact Nat.le_trans (List.length_take_le' _ _)
        (List.length_take_le _ _)

theorem delivered_of_last {input : List α}
    (last : (faults 0).isSome ∨ input.length < size) :
    delivered size faults input = piece size (faults 0) input := by
  cases fault : faults 0 with
  | some kept =>
      simp [delivered, piece, List.range_succ_eq_map, fault, List.take_take]
  | none =>
      have short : input.length < size := by simpa [fault] using last
      rw [piece, List.take_of_length_le (Nat.le_of_lt short)]
      apply delivered_of_none
      intro block below
      rw [Nat.div_eq_of_lt short] at below
      rw [Nat.le_zero.mp below, fault]

theorem delivered_of_full {input : List α} (positive : 0 < size)
    (noFault : faults 0 = none) (full : size ≤ input.length) :
    delivered size faults input = input.take size ++
      delivered size (fun block => faults (block + 1)) (input.drop size) := by
  have blocks : input.length / size =
      (input.drop size).length / size + 1 := by
    rw [List.length_drop, ← Nat.sub_add_cancel full,
      Nat.add_div_right _ positive, Nat.sub_add_cancel full]
  have shifted : ∀ block kept, (block + 1) * size + min kept size =
      size + (block * size + min kept size) := by
    intro block kept
    rw [Nat.succ_mul]
    omega
  have found : ∀ count,
      (List.range (count + 1)).findSome? (fun block =>
        (faults block).map fun kept => block * size + min kept size) =
      ((List.range count).findSome? fun block =>
        (faults (block + 1)).map fun kept =>
          block * size + min kept size).map (size + ·) := by
    intro count
    rw [List.range_succ_eq_map, List.findSome?_cons, noFault,
      List.findSome?_map, List.map_findSome?]
    simp only [Option.map_none, Function.comp_def, Option.map_map, shifted]
  unfold delivered
  rw [found, blocks]
  cases (List.range ((input.drop size).length / size + 1)).findSome?
      fun block => (faults (block + 1)).map fun kept =>
        block * size + min kept size with
  | none => exact (List.take_append_drop size input).symm
  | some length => exact List.take_add

theorem piece_starts (positive : 0 < size) (input : List α) :
    piece size (faults 0) input <+: delivered size faults input := by
  by_cases last : (faults 0).isSome ∨ input.length < size
  · exact ⟨[], by rw [delivered_of_last size faults last, List.append_nil]⟩
  · rw [not_or, Option.not_isSome_iff_eq_none, Nat.not_lt] at last
    rw [delivered_of_full size faults positive last.1 last.2, last.1]
    exact List.prefix_append _ _

/-- The loop: absorb what a read has delivered, where that is anything, and
stop at a short block or at a fault.  `accepts` says which of the calls to the
absorber succeed. -/
def drain (absorber : Absorber σ α) (positive : 0 < size)
    (faults : Nat → Option Nat) (accepts : Nat → Bool) (input : List α)
    (state : σ) : Option σ :=
  let got := piece size (faults 0) input
  if got ≠ [] ∧ accepts 0 = false then none
  else
    let after := if got = [] then state else absorber.absorb state got
    if (faults 0).isSome ∨ input.length < size then some after
    else
      drain absorber positive (fun block => faults (block + 1))
        (fun block => accepts (block + 1)) (input.drop size) after
termination_by input.length
decreasing_by
  rw [List.length_drop]
  omega

/-- Every call to the absorber that an input of this length needs succeeds. -/
def Accepted (accepts : Nat → Bool) (length : Nat) : Prop :=
  ∀ block, block * size < length → accepts block = true

variable {size faults}

theorem accepted_of_le {accepts : Nat → Bool} {length : Nat}
    (single : length ≤ size) :
    Accepted size accepts length ↔ (length ≠ 0 → accepts 0 = true) := by
  constructor
  · intro accepted nonempty
    exact accepted 0 (by omega)
  · intro accepted block inside
    cases block with
    | zero => exact accepted (by omega)
    | succ block =>
        rw [Nat.succ_mul] at inside
        omega

/-- A whole block and what is left are accepted one after the other. -/
theorem accepted_add {accepts : Nat → Bool} {rest : Nat}
    (positive : 0 < size) :
    Accepted size accepts (size + rest) ↔ accepts 0 = true ∧
      Accepted size (fun block => accepts (block + 1)) rest := by
  constructor
  · intro accepted
    refine ⟨accepted 0 (by omega), fun block inside => ?_⟩
    apply accepted
    rw [Nat.succ_mul]
    omega
  · rintro ⟨first, others⟩ block inside
    cases block with
    | zero => exact first
    | succ block =>
        apply others
        rw [Nat.succ_mul] at inside
        omega

theorem Absorber.skip (absorber : Absorber σ α) (state : σ)
    (got : List α) :
    (if got = [] then state else absorber.absorb state got) =
      absorber.absorb state got := by
  split
  · next empty => rw [empty, absorber.absorb_nil]
  · rfl

/-- The loop ends where one call with all that was delivered would. -/
theorem drain_eq_some (absorber : Absorber σ α) (positive : 0 < size)
    (faults : Nat → Option Nat) (accepts : Nat → Bool) (input : List α)
    (state final : σ) :
    drain size absorber positive faults accepts input state = some final ↔
      Accepted size accepts (delivered size faults input).length ∧
      absorber.absorb state (delivered size faults input) = final := by
  induction faults, accepts, input, state using
      drain.induct size absorber positive with
  | case1 faults accepts input state got refused =>
      rw [drain, if_pos refused]
      refine iff_of_false (by rintro ⟨⟩) fun both => ?_
      have accepted := both.1 0 (by
        rw [Nat.zero_mul]
        exact Nat.lt_of_lt_of_le (List.length_pos_iff.mpr refused.1)
          (piece_starts size faults positive input).length_le)
      rw [refused.2] at accepted
      cases accepted
  | case2 faults accepts input state got accepted last =>
      rw [drain, if_neg accepted]
      simp only [if_pos last, absorber.skip, delivered_of_last size faults last,
        accepted_of_le (length_piece_le size _ _), Option.some.injEq]
      refine (and_iff_right fun nonempty => ?_).symm
      by_contra refused
      exact accepted ⟨List.length_pos_iff.mp (Nat.pos_of_ne_zero nonempty),
        Bool.eq_false_iff.mpr refused⟩
  | case3 faults accepts input state got accepted after goesOn ih =>
      have noFault : faults 0 = none := by
        simpa using fun fault => goesOn (.inl fault)
      have full : size ≤ input.length := by
        by_contra short
        exact goesOn (.inr (Nat.lt_of_not_le short))
      have whole : got = input.take size := by
        simp only [got, noFault, piece]
      have absorbed : after = absorber.absorb state (input.take size) := by
        rw [← whole]
        exact absorber.skip state got
      have accepts' : accepts 0 = true := by
        by_contra refused
        refine accepted ⟨?_, Bool.eq_false_iff.mpr refused⟩
        rw [whole]
        apply List.length_pos_iff.mp
        rw [List.length_take_of_le full]
        exact positive
      rw [drain, if_neg accepted]
      simp only [if_neg goesOn]
      change drain size absorber positive _ _ _ after = _ ↔ _
      rw [ih, delivered_of_full size faults positive noFault full, absorbed,
        absorber.absorb_append, List.length_append,
        List.length_take_of_le full, accepted_add positive,
        and_iff_right accepts']

end Blocks
