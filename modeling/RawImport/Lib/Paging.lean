import Mathlib.Data.List.Nodup
import Mathlib.Data.List.TakeWhile

/-!
# Pages of a list

`LIMIT` and `OFFSET` cut a page out of a list of rows.  A reader of the pages
may ask for a wrong place, or stop at a row it cannot take; the lemmas say when
a page is still the one it should be, and when all pages together are the list.
-/

namespace Paging

universe u

variable {α : Type u} {rows : List α} {offset limit count : Nat}

/-- `LIMIT limit OFFSET offset`. -/
def slice (rows : List α) (offset limit : Nat) : List α :=
  (rows.drop offset).take limit

theorem slice_eq_nil_iff (positive : 0 < limit) :
    slice rows offset limit = [] ↔ rows.length ≤ offset := by
  unfold slice
  rw [List.take_eq_nil_iff, List.drop_eq_nil_iff]
  constructor
  · intro empty
    rcases empty with none | past
    · omega
    · exact past
  · intro past
    exact .inr past

theorem head?_slice (positive : 0 < limit) :
    (slice rows offset limit).head? = rows[offset]? := by
  unfold slice
  rw [List.head?_take, if_neg (Nat.pos_iff_ne_zero.mp positive),
    List.head?_drop]

theorem mem_of_mem_slice {row : α} (member : row ∈ slice rows offset limit) :
    row ∈ rows :=
  List.mem_of_mem_drop (List.mem_of_mem_take member)

theorem take_append_slice :
    rows.take offset ++ slice rows offset limit =
      rows.take (offset + limit) :=
  List.take_add.symm

theorem flatMap_slice (count : Nat) :
    ((List.range count).flatMap fun page =>
        slice rows (page * limit) limit) =
      rows.take (count * limit) := by
  induction count with
  | zero => simp
  | succ count ih =>
      rw [List.range_succ, List.flatMap_append, ih, List.flatMap_singleton,
        take_append_slice, Nat.succ_mul]

/-- The page at the place a reader asks for, up to the first row it cannot
take; a request may also be refused. -/
def shown (fits : α → Bool) (rows : List α) (limit : Nat) :
    Option Nat → List α
  | none => []
  | some asked => (slice rows asked limit).takeWhile fits

variable {fits : α → Bool} {asked : Option Nat} {row : α}

theorem fits_of_mem_shown (member : row ∈ shown fits rows limit asked) :
    fits row = true := by
  cases asked with
  | none => cases member
  | some asked => exact List.mem_takeWhile_imp member

theorem mem_of_mem_shown (member : row ∈ shown fits rows limit asked) :
    row ∈ rows := by
  cases asked with
  | none => cases member
  | some asked =>
      exact mem_of_mem_slice ((List.takeWhile_prefix fits).subset member)

theorem shown_some {asked : Nat} :
    shown fits rows limit (some asked) =
      (slice rows asked limit).takeWhile fits :=
  rfl

theorem mem_shown (positive : 0 < limit) {asked : Nat}
    (here : rows[asked]? = some row) (taken : fits row = true) :
    row ∈ shown fits rows limit (some asked) := by
  rw [← head?_slice positive] at here
  rw [shown_some]
  cases page : slice rows asked limit with
  | nil =>
      rw [page] at here
      cases here
  | cons first rest =>
      rw [page] at here
      cases here
      rw [List.takeWhile_cons, if_pos taken]
      exact List.mem_cons_self

theorem getElem?_of_head?_shown (positive : 0 < limit) {asked : Nat}
    (first : (shown fits rows limit (some asked)).head? = some row) :
    rows[asked]? = some row := by
  rw [← head?_slice positive]
  rw [shown_some] at first
  cases page : slice rows asked limit with
  | nil =>
      rw [page] at first
      cases first
  | cons head rest =>
      rw [page, List.takeWhile_cons] at first
      split at first
      · exact first
      · cases first

theorem shown_eq_nil_iff (positive : 0 < limit) {asked : Nat} :
    shown fits rows limit (some asked) = [] ↔
      ∀ row, rows[asked]? = some row → fits row = false := by
  constructor
  · intro empty row here
    by_contra fitting
    have member := mem_shown positive here (eq_true_of_ne_false fitting)
    rw [empty] at member
    cases member
  · intro cut
    rw [← List.head?_eq_none_iff]
    by_contra some_row
    obtain ⟨row, first⟩ := Option.ne_none_iff_exists'.mp some_row
    have refused := cut row (getElem?_of_head?_shown positive first)
    have taken := fits_of_mem_shown (List.mem_of_head? first)
    rw [refused] at taken
    cases taken

/-- What is shown at a place is the page there if every row of it can be
taken. -/
theorem shown_self_iff :
    shown fits rows limit (some offset) = slice rows offset limit ↔
      ∀ row ∈ slice rows offset limit, fits row = true :=
  List.takeWhile_eq_self_iff

theorem shown_eq_slice_iff (distinct : rows.Nodup) (positive : 0 < limit)
    {asked : Nat} (elsewhere : asked ≠ offset) :
    shown fits rows limit (some asked) = slice rows offset limit ↔
      rows.length ≤ offset ∧
        ∀ row, rows[asked]? = some row → fits row = false := by
  rw [← shown_eq_nil_iff positive, ← slice_eq_nil_iff positive]
  constructor
  · intro equal
    have empty : slice rows offset limit = [] := by
      rw [← List.head?_eq_none_iff]
      by_contra some_row
      obtain ⟨row, first⟩ := Option.ne_none_iff_exists'.mp some_row
      have here := getElem?_of_head?_shown positive (equal ▸ first)
      rw [head?_slice positive] at first
      obtain ⟨leftBound, leftPlace⟩ := List.getElem?_eq_some_iff.mp here
      obtain ⟨rightBound, rightPlace⟩ := List.getElem?_eq_some_iff.mp first
      have same := leftPlace.trans rightPlace.symm
      exact elsewhere (distinct.getElem_inj_iff.mp same)
    exact ⟨empty, equal.trans empty⟩
  · intro both
    obtain ⟨empty, cut⟩ := both
    rw [cut, empty]

theorem flatMap_range_split {β : Type u} (pages : Nat → List β)
    {reach count : Nat} (inside : reach ≤ count) :
    (List.range count).flatMap pages =
      (List.range reach).flatMap pages ++
        (List.range (count - reach)).flatMap fun page =>
          pages (reach + page) := by
  have split : List.range count =
      List.range reach ++ (List.range (count - reach)).map (reach + ·) := by
    rw [← List.range_add, Nat.add_sub_cancel' inside]
  rw [split, List.flatMap_append, List.flatMap_map]

variable {requests : Nat → Option Nat} {reach : Nat}

/-- A request that points back behind the pages shown so far repeats a row. -/
theorem shown_eq_nil_of_back (positive : 0 < limit) {asked : Nat}
    {rest : List α} (distinct : (rows.take reach ++ rest).Nodup)
    (back : asked < reach)
    (later : shown fits rows limit (some asked) ⊆ rest) :
    shown fits rows limit (some asked) = [] := by
  rw [shown_eq_nil_iff positive]
  intro row here
  by_contra fitting
  have again := later
    (mem_shown positive here (eq_true_of_ne_false fitting))
  have before : row ∈ rows.take reach := by
    apply List.mem_of_getElem?
    rw [List.getElem?_take_of_lt back]
    exact here
  exact (List.nodup_append.mp distinct).2.2 row before row again rfl

/-- Rows that the pages show together all fit, so a request that is right shows
its page. -/
theorem shown_eq_slice_of_flatMap {page count : Nat}
    (together : ((List.range count).flatMap fun page =>
      shown fits rows limit (requests page)) = rows)
    (right : requests page = some (page * limit)) :
    shown fits rows limit (requests page) =
      slice rows (page * limit) limit := by
  rw [right, shown_self_iff]
  intro row member
  have listed := mem_of_mem_slice member
  rw [← together] at listed
  obtain ⟨earlier, -, here⟩ := List.mem_flatMap.mp listed
  exact fits_of_mem_shown here

/-- The pages whose requests point back behind `reach` are empty where the
rows before it have been shown. -/
theorem shown_eq_nil_of_late {page count : Nat} (positive : 0 < limit)
    (distinct : (rows.take (reach * limit) ++
      (List.range (count - reach)).flatMap fun page =>
        shown fits rows limit (requests (reach + page))).Nodup)
    (late : ∀ asked, requests page = some asked → asked < reach * limit)
    (below : page < count) (beyond : reach ≤ page) :
    shown fits rows limit (requests page) = [] := by
  cases request : requests page with
  | none => rfl
  | some asked =>
      apply shown_eq_nil_of_back positive distinct (late asked request)
      intro row member
      apply List.mem_flatMap.mpr
      refine ⟨page - reach, List.mem_range.mpr (by omega), ?_⟩
      rw [Nat.add_sub_cancel' beyond, request]
      exact member

/-- Where the requests are right up to `reach` and point back behind it, the
pages together are the list exactly if each of them is right and there are
enough of them. -/
theorem flatMap_shown_iff (distinct : rows.Nodup) (positive : 0 < limit)
    (inside : reach ≤ count)
    (early : ∀ page < reach, requests page = some (page * limit))
    (late : ∀ page < count, reach ≤ page →
      ∀ asked, requests page = some asked → asked < reach * limit) :
    ((List.range count).flatMap fun page =>
        shown fits rows limit (requests page)) = rows ↔
      rows.length ≤ count * limit ∧
        ∀ page < count,
          shown fits rows limit (requests page) =
            slice rows (page * limit) limit := by
  constructor
  · intro together
    have early_right : ∀ page < reach,
        shown fits rows limit (requests page) =
          slice rows (page * limit) limit := by
      intro page below
      exact shown_eq_slice_of_flatMap together (early page below)
    have front :
        ((List.range reach).flatMap fun page =>
            shown fits rows limit (requests page)) =
          rows.take (reach * limit) := by
      rw [← flatMap_slice]
      apply List.flatMap_congr
      intro page member
      exact early_right page (List.mem_range.mp member)
    rw [flatMap_range_split _ inside, front] at together
    have late_empty : ∀ page < count, reach ≤ page →
        shown fits rows limit (requests page) = [] := by
      intro page below beyond
      exact shown_eq_nil_of_late positive (together.symm ▸ distinct)
        (late page below beyond) below beyond
    have behind :
        ((List.range (count - reach)).flatMap fun page =>
          shown fits rows limit (requests (reach + page))) = [] := by
      rw [List.flatMap_eq_nil_iff]
      intro page member
      have below := List.mem_range.mp member
      exact late_empty _ (by omega) (Nat.le_add_right _ _)
    rw [behind, List.append_nil] at together
    have together : rows.length ≤ reach * limit := by
      rw [← together]
      exact List.length_take_le _ _
    refine ⟨together.trans (Nat.mul_le_mul_right _ inside), ?_⟩
    intro page below
    by_cases before : page < reach
    · exact early_right page before
    · have beyond : reach ≤ page := Nat.le_of_not_lt before
      rw [late_empty page below beyond]
      symm
      rw [slice_eq_nil_iff positive]
      exact together.trans (Nat.mul_le_mul_right _ beyond)
  · intro right
    obtain ⟨enough, each⟩ := right
    calc
      ((List.range count).flatMap fun page =>
          shown fits rows limit (requests page)) =
          (List.range count).flatMap fun page =>
            slice rows (page * limit) limit := by
        apply List.flatMap_congr
        intro page member
        exact each page (List.mem_range.mp member)
      _ = rows := by
        rw [flatMap_slice, List.take_of_length_le enough]

end Paging
