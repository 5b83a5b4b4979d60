import Mathlib.Data.List.Basic
import Mathlib.Data.List.TakeWhile

/-!
# Texts without the blanks around them

Trimming takes blanks away at both ends of a text and nothing else.
-/

namespace Trim

universe u

variable {α : Type u}

def trim (blank : α → Bool) (text : List α) : List α :=
  ((text.dropWhile blank).reverse.dropWhile blank).reverse

def solid (blank : α → Bool) (text : List α) : List α :=
  text.filter fun c => !blank c

def trimEnd (blank : α → Bool) (text : List α) : List α :=
  (text.reverse.dropWhile blank).reverse

variable {blank : α → Bool}

@[simp] theorem solid_nil : solid blank ([] : List α) = [] :=
  rfl

theorem solid_append (text more : List α) :
    solid blank (text ++ more) = solid blank text ++ solid blank more :=
  List.filter_append _ _

theorem solid_dropWhile (text : List α) :
    solid blank (text.dropWhile blank) = solid blank text := by
  induction text with
  | nil => rfl
  | cons c text ih =>
      rw [List.dropWhile_cons]
      split
      · rename_i here
        rw [ih]
        simp [solid, here]
      · rfl

theorem solid_reverse (text : List α) :
    solid blank text.reverse = (solid blank text).reverse :=
  List.filter_reverse

@[simp] theorem solid_trim (text : List α) :
    solid blank (trim blank text) = solid blank text := by
  rw [trim, solid_reverse, solid_dropWhile, solid_reverse, solid_dropWhile,
    List.reverse_reverse]

theorem trim_eq_nil_iff {text : List α} :
    trim blank text = [] ↔ solid blank text = [] := by
  constructor
  · intro empty
    rw [← solid_trim, empty]
    rfl
  · intro empty
    have blanks : ∀ c ∈ text, blank c = true := by
      simpa [solid, List.filter_eq_nil_iff] using empty
    have dropped : text.dropWhile blank = [] :=
      List.dropWhile_eq_nil_iff.mpr blanks
    simp [trim, dropped]

theorem trim_padded {before later : List α}
    (blankBefore : ∀ c ∈ before, blank c = true)
    (blankLater : ∀ c ∈ later, blank c = true) (text : List α) :
    trim blank (before ++ text ++ later) = trim blank text := by
  by_cases nothing : text.dropWhile blank = []
  · have blanks := List.dropWhile_eq_nil_iff.mp nothing
    have empty : trim blank text = [] := by
      rw [trim, nothing]
      rfl
    rw [empty, trim_eq_nil_iff, solid, List.filter_eq_nil_iff]
    intro c member
    rcases List.mem_append.mp member with front | back
    · rcases List.mem_append.mp front with first | middle
      · simpa using blankBefore c first
      · simpa using blanks c middle
    · simpa using blankLater c back
  · have blankReverse : ∀ c ∈ later.reverse, blank c = true := by
      intro c member
      exact blankLater c (List.mem_reverse.mp member)
    have dropped : (before ++ text ++ later).dropWhile blank =
        text.dropWhile blank ++ later := by
      rw [List.append_assoc, List.dropWhile_append_of_pos blankBefore,
        List.dropWhile_append, if_neg (by simpa using nothing)]
    rw [trim, dropped, List.reverse_append,
      List.dropWhile_append_of_pos blankReverse]
    rfl

theorem dropWhile_of_solid {text : List α}
    (present : ∀ c ∈ text, blank c = false) : text.dropWhile blank = text := by
  cases text with
  | nil => rfl
  | cons c text =>
      rw [List.dropWhile_cons_of_neg]
      simpa using present c List.mem_cons_self

theorem trim_of_solid {text : List α}
    (present : ∀ c ∈ text, blank c = false) : trim blank text = text := by
  have presentReverse : ∀ c ∈ text.reverse, blank c = false := by
    intro c member
    exact present c (List.mem_reverse.mp member)
  rw [trim, dropWhile_of_solid present, dropWhile_of_solid presentReverse,
    List.reverse_reverse]

/-- In front of something that is not blank nothing is trimmed at the end. -/
theorem trim_append_cons {front : List α} {c : α}
    (starts : front.dropWhile blank = front) (present : blank c = false)
    (rest : List α) :
    trim blank (front ++ c :: rest) = front ++ c :: trimEnd blank rest := by
  have dropped : (front ++ c :: rest).dropWhile blank = front ++ c :: rest := by
    rw [List.dropWhile_append, starts]
    split
    · rename_i empty
      rw [List.isEmpty_iff.mp empty,
        List.dropWhile_cons_of_neg (by simp [present])]
      rfl
    · rfl
  have turned : (front ++ c :: rest).reverse.dropWhile blank =
      rest.reverse.dropWhile blank ++ c :: front.reverse := by
    rw [List.reverse_append, List.reverse_cons, List.append_assoc,
      List.dropWhile_append]
    split
    · rename_i empty
      rw [List.isEmpty_iff.mp empty]
      exact List.dropWhile_cons_of_neg (by simp [present])
    · rfl
  rw [trim, dropped, turned]
  simp [trimEnd]

@[simp] theorem trim_trimEnd (text : List α) :
    trim blank (trimEnd blank text) = trim blank text := by
  have split : text = trimEnd blank text ++
      (text.reverse.takeWhile blank).reverse := by
    rw [trimEnd, ← List.reverse_append, List.takeWhile_append_dropWhile,
      List.reverse_reverse]
  have blanks : ∀ c ∈ (text.reverse.takeWhile blank).reverse,
      blank c = true := by
    intro c member
    exact List.mem_takeWhile_imp (List.mem_reverse.mp member)
  have nothing : ∀ c ∈ ([] : List α), blank c = true := by simp
  have padded := trim_padded nothing blanks (trimEnd blank text)
  rw [List.nil_append, ← split] at padded
  exact padded.symm

end Trim
