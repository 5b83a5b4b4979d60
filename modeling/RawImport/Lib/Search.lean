import Mathlib.Data.List.Infix
import Mathlib.Data.Nat.Find

/-!
# First occurrences

`find` and `findFrom` return the first place of a pattern in a text, as
`std::string::find` does.  The lemmas give the place by its defining property
and say how it depends on the text behind it.
-/

namespace Search

universe u

variable {α : Type u} [DecidableEq α]

/-- The first index at which the pattern stands. -/
def find (pattern : List α) : List α → Option Nat
  | [] => if pattern = [] then some 0 else none
  | c :: text =>
      if pattern <+: c :: text then some 0
      else (find pattern text).map (· + 1)

/-- The first index from `start` on at which the pattern stands. -/
def findFrom (pattern text : List α) (start : Nat) : Option Nat :=
  if start ≤ text.length then
    (find pattern (text.drop start)).map (start + ·)
  else none

variable {pattern text : List α} {index start : Nat}

theorem find_eq_some_iff :
    find pattern text = some index ↔
      index ≤ text.length ∧ pattern <+: text.drop index ∧
        ∀ earlier < index, ¬pattern <+: text.drop earlier := by
  induction text generalizing index with
  | nil =>
      unfold find
      constructor
      · intro found
        split at found
        · rename_i empty
          cases found
          exact ⟨Nat.le_refl _, by simp [empty],
            fun earlier below => absurd below (Nat.not_lt_zero _)⟩
        · cases found
      · intro occurrence
        obtain ⟨bound, stands, -⟩ := occurrence
        have zero : index = 0 := Nat.le_zero.mp bound
        have empty : pattern = [] := by simpa using stands
        rw [if_pos empty, zero]
  | cons c text ih =>
      unfold find
      split
      · rename_i here
        constructor
        · intro found
          cases found
          exact ⟨Nat.zero_le _, here,
            fun earlier below => absurd below (Nat.not_lt_zero _)⟩
        · intro occurrence
          obtain ⟨-, -, first⟩ := occurrence
          cases index with
          | zero => rfl
          | succ index => exact (first 0 (Nat.succ_pos _) here).elim
      · rename_i notHere
        constructor
        · intro found
          obtain ⟨place, later, rfl⟩ := Option.map_eq_some_iff.mp found
          obtain ⟨bound, stands, first⟩ := ih.mp later
          refine ⟨Nat.succ_le_succ bound, stands, ?_⟩
          intro earlier below
          cases earlier with
          | zero => exact notHere
          | succ earlier => exact first earlier (Nat.lt_of_succ_lt_succ below)
        · intro occurrence
          obtain ⟨bound, stands, first⟩ := occurrence
          cases index with
          | zero => exact (notHere stands).elim
          | succ index =>
              have later : find pattern text = some index := by
                apply ih.mpr
                refine ⟨Nat.le_of_succ_le_succ bound, stands, ?_⟩
                intro earlier below
                exact first (earlier + 1) (Nat.succ_lt_succ below)
              rw [later]
              rfl

theorem find_bound (found : find pattern text = some index) :
    index + pattern.length ≤ text.length := by
  obtain ⟨bound, stands, -⟩ := Iff.mp find_eq_some_iff found
  have room := stands.length_le
  rw [List.length_drop] at room
  omega

theorem find_singleton {c : α} (found : find [c] text = some index) :
    index + 1 ≤ text.length :=
  find_bound found

theorem findFrom_eq_some (found : findFrom pattern text start = some index) :
    start ≤ index ∧ pattern <+: text.drop index ∧
      index + pattern.length ≤ text.length := by
  unfold findFrom at found
  split at found
  · obtain ⟨place, later, rfl⟩ := Option.map_eq_some_iff.mp found
    obtain ⟨bound, stands, -⟩ := Iff.mp find_eq_some_iff later
    rw [List.drop_drop] at stands
    refine ⟨Nat.le_add_right _ _, stands, ?_⟩
    have room := find_bound later
    rw [List.length_drop] at room
    rw [List.length_drop] at bound
    omega
  · cases found

theorem find_append (found : find pattern text = some index)
    (more : List α) : find pattern (text ++ more) = some index := by
  obtain ⟨bound, stands, first⟩ := Iff.mp find_eq_some_iff found
  have room := find_bound found
  apply Iff.mpr find_eq_some_iff
  refine ⟨by rw [List.length_append]; omega, ?_, ?_⟩
  · rw [List.drop_append_of_le_length bound]
    exact stands.trans (List.prefix_append _ _)
  · intro earlier below stands'
    apply first earlier below
    rw [List.drop_append_of_le_length (by omega)] at stands'
    apply List.prefix_of_prefix_length_le stands' (List.prefix_append _ _)
    rw [List.length_drop]
    omega

/-- What is found in a text is found in every prefix that reaches it. -/
theorem find_take (found : find pattern text = some index) {length : Nat}
    (reaches : index + pattern.length ≤ length) :
    find pattern (text.take length) = some index := by
  obtain ⟨bound, stands, first⟩ := Iff.mp find_eq_some_iff found
  have room := find_bound found
  apply Iff.mpr find_eq_some_iff
  refine ⟨by rw [List.length_take]; omega, ?_, ?_⟩
  · rw [List.drop_take]
    apply List.prefix_take_iff.mpr
    exact ⟨stands, by omega⟩
  · intro earlier below stands'
    apply first earlier below
    rw [List.drop_take] at stands'
    exact stands'.trans (List.take_prefix _ _)

theorem findFrom_eq_some_iff :
    findFrom pattern text start = some index ↔
      start ≤ index ∧ index ≤ text.length ∧ pattern <+: text.drop index ∧
        ∀ earlier, start ≤ earlier → earlier < index →
          ¬pattern <+: text.drop earlier := by
  constructor
  · intro found
    obtain ⟨le, stands, room⟩ := findFrom_eq_some found
    refine ⟨le, by omega, stands, ?_⟩
    intro earlier from' below
    unfold findFrom at found
    rw [if_pos (by omega)] at found
    obtain ⟨place, later, rfl⟩ := Option.map_eq_some_iff.mp found
    obtain ⟨-, -, first⟩ := Iff.mp find_eq_some_iff later
    have missing := first (earlier - start) (by omega)
    rw [List.drop_drop, Nat.add_sub_cancel' from'] at missing
    exact missing
  · intro occurrence
    obtain ⟨le, bound, stands, first⟩ := occurrence
    unfold findFrom
    rw [if_pos (Nat.le_trans le bound)]
    apply Option.map_eq_some_iff.mpr
    refine ⟨index - start, ?_, Nat.add_sub_cancel' le⟩
    apply Iff.mpr find_eq_some_iff
    refine ⟨by rw [List.length_drop]; omega, ?_, ?_⟩
    · rw [List.drop_drop, Nat.add_sub_cancel' le]
      exact stands
    · intro earlier below
      rw [List.drop_drop]
      exact first (start + earlier) (Nat.le_add_right _ _) (by omega)

theorem exists_findFrom_le (le : start ≤ index) (bound : index ≤ text.length)
    (stands : pattern <+: text.drop index) :
    ∃ first ≤ index, findFrom pattern text start = some first := by
  have occurs : ∃ index, start ≤ index ∧ index ≤ text.length ∧
      pattern <+: text.drop index := ⟨index, le, bound, stands⟩
  have least := Nat.find_spec occurs
  refine ⟨Nat.find occurs, Nat.find_min' occurs ⟨le, bound, stands⟩, ?_⟩
  apply findFrom_eq_some_iff.mpr
  refine ⟨least.1, least.2.1, least.2.2, ?_⟩
  intro earlier from' below stands'
  exact Nat.find_min occurs below
    ⟨from', Nat.le_of_lt (Nat.lt_of_lt_of_le below least.2.1), stands'⟩

theorem findFrom_take (found : findFrom pattern text start = some index)
    {length : Nat} (reaches : index + pattern.length ≤ length) :
    findFrom pattern (text.take length) start = some index := by
  obtain ⟨-, -, room⟩ := findFrom_eq_some found
  obtain ⟨le, bound, stands, first⟩ := findFrom_eq_some_iff.mp found
  apply findFrom_eq_some_iff.mpr
  refine ⟨le, by rw [List.length_take]; omega, ?_, ?_⟩
  · rw [List.drop_take]
    exact List.prefix_take_iff.mpr ⟨stands, by omega⟩
  · intro earlier from' below stands'
    apply first earlier from' below
    rw [List.drop_take] at stands'
    exact stands'.trans (List.take_prefix _ _)

omit [DecidableEq α] in
/-- What stands inside an occurrence is one of the pattern's characters. -/
theorem mem_of_inside {c : α} {rest : List α} {place : Nat}
    (stands : pattern <+: text.drop index)
    (other : c :: rest <+: text.drop place) (le : index ≤ place)
    (inside : place < index + pattern.length) : c ∈ pattern := by
  obtain ⟨behind, whole⟩ := stands
  have same : text.drop place = pattern.drop (place - index) ++ behind := by
    calc
      text.drop place = (text.drop index).drop (place - index) := by
        rw [List.drop_drop, Nat.add_sub_cancel' le]
      _ = pattern.drop (place - index) ++ behind := by
        rw [← whole, List.drop_append_of_le_length (by omega)]
  have nonempty : pattern.drop (place - index) ≠ [] := by
    apply List.ne_nil_of_length_pos
    rw [List.length_drop]
    omega
  obtain ⟨head, tail, split⟩ := List.exists_cons_of_ne_nil nonempty
  rw [same, split, List.cons_append] at other
  have equal := (List.cons_prefix_cons.mp other).1
  rw [equal]
  apply List.mem_of_mem_drop
  rw [split]
  exact List.mem_cons_self

theorem find_of_not_mem {c : α} {tail before : List α} (rest : List α)
    (absent : c ∉ before) :
    find (c :: tail) (before ++ (c :: tail ++ rest)) =
      some before.length := by
  apply Iff.mpr find_eq_some_iff
  refine ⟨by simp, ?_, ?_⟩
  · rw [List.drop_left]
    exact List.prefix_append _ _
  · intro earlier below stands
    apply absent
    have start : before <+:
        (before ++ (c :: tail ++ rest)).drop 0 :=
      List.prefix_append before _
    apply mem_of_inside start stands (Nat.zero_le _)
    rw [Nat.zero_add]
    exact below

theorem find_here {rest : List α} (stands : pattern <+: rest) :
    find pattern rest = some 0 := by
  apply Iff.mpr find_eq_some_iff
  refine ⟨Nat.zero_le _, stands, ?_⟩
  intro earlier below
  exact absurd below (Nat.not_lt_zero _)

theorem find_cons {c : α} {rest : List α} (other : ¬pattern <+: c :: rest) :
    find pattern (c :: rest) = (find pattern rest).map (· + 1) := by
  rw [find, if_neg other]

theorem find_pass {c : α} {tail front : List α} (absent : c ∉ front)
    (rest : List α) :
    find (c :: tail) (front ++ rest) =
      (find (c :: tail) rest).map (front.length + ·) := by
  induction front with
  | nil => simp
  | cons d front ih =>
      have different : ¬c :: tail <+: d :: (front ++ rest) := by
        intro stands
        apply absent
        rw [(List.cons_prefix_cons.mp stands).1]
        exact List.mem_cons_self
      rw [List.cons_append, find_cons different,
        ih fun member => absent (List.mem_cons_of_mem d member),
        Option.map_map]
      congr 1
      funext place
      simp only [Function.comp_apply, List.length_cons]
      omega

/-- A pattern is nowhere in a text without its first character. -/
theorem find_eq_none {c : α} {tail : List α} (absent : c ∉ text) :
    find (c :: tail) text = none := by
  cases found : find (c :: tail) text with
  | none => rfl
  | some index =>
      obtain ⟨-, stands, -⟩ := Iff.mp find_eq_some_iff found
      have member : c ∈ text.drop index :=
        stands.subset List.mem_cons_self
      exact (absent (List.mem_of_mem_drop member)).elim

theorem findFrom_char_some {c : α} (found : findFrom [c] text start = some index) :
    start ≤ index ∧ index < text.length ∧ ∃ front,
      c ∉ front ∧ front.length = index - start ∧
      text.drop start = front ++ c :: text.drop (index + 1) := by
  obtain ⟨le, bound, stands, first⟩ := findFrom_eq_some_iff.mp found
  obtain ⟨back, here⟩ := stands
  have inside : index < text.length := by
    by_contra outside
    rw [List.drop_eq_nil_of_le (Nat.le_of_not_lt outside)] at here
    cases here
  have back' : back = text.drop (index + 1) := by
    rw [← List.drop_drop, ← here]
    rfl
  refine ⟨le, inside, (text.drop start).take (index - start), ?_, ?_, ?_⟩
  · intro member
    obtain ⟨place, below, at_⟩ := List.mem_take_iff_getElem.mp member
    rw [List.length_drop] at below
    have before := first (start + place) (Nat.le_add_right _ _) (by omega)
    apply before
    rw [List.drop_eq_getElem_cons (by omega), ← at_, List.getElem_drop]
    exact ⟨_, rfl⟩
  · rw [List.length_take, List.length_drop]
    omega
  · rw [← back']
    calc
      text.drop start =
          (text.drop start).take (index - start) ++
            (text.drop start).drop (index - start) :=
        (List.take_append_drop _ _).symm
      _ = _ := by rw [List.drop_drop, Nat.add_sub_cancel' le, ← here]; rfl

theorem findFrom_char_none {c : α} (le : start ≤ text.length)
    (missing : findFrom [c] text start = none) : c ∉ text.drop start := by
  intro member
  obtain ⟨place, inside, at_⟩ := List.mem_iff_getElem.mp member
  rw [List.length_drop] at inside
  have stands : [c] <+: text.drop (start + place) := by
    rw [List.drop_eq_getElem_cons (by omega), ← at_, List.getElem_drop]
    exact ⟨_, rfl⟩
  obtain ⟨first, -, found⟩ :=
    exists_findFrom_le (Nat.le_add_right _ _) (by omega) stands
  rw [missing] at found
  cases found

end Search
