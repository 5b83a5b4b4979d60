import Mathlib.Algebra.GroupWithZero.Nat
import RawImport.Lib.Trim

/-!
# Texts cut at marked places

A scanner marks some elements of a text as separators; its entries are the
parts between them, without the blanks around them and without blank parts.
Nothing but separators and blanks is lost, and where no part begins with a
separator the entries determine the marks.
-/

namespace Cutting

open Trim

universe u

variable {α : Type u}

/-- The parts of a text between its marked elements. -/
def pieces (marked : List (α × Bool)) : List (List α) :=
  (marked.splitOnP Prod.snd).map (List.map Prod.fst)

theorem sublist_of_mem_splitOn [BEq α] {text segment : List α}
    {separator : α} (member : segment ∈ text.splitOn separator) :
    segment.Sublist text := by
  induction text generalizing segment with
  | nil =>
      rw [List.mem_singleton.mp member]
      exact List.Sublist.refl _
  | cons c text ih =>
      rw [List.splitOn_cons_eq_if_modifyHead] at member
      split at member
      · rcases List.mem_cons.mp member with rfl | later
        · exact List.nil_sublist _
        · exact (ih later).cons c
      · obtain ⟨first, others, segments⟩ :=
          List.exists_cons_of_ne_nil (List.splitOn_ne_nil separator text)
        rw [segments] at member ih
        rcases List.mem_cons.mp member with rfl | later
        · exact (ih List.mem_cons_self).cons_cons c
        · exact (ih (List.mem_cons_of_mem _ later)).cons c

theorem splitOnP_map {β : Type u} (f : β → α) (separates : α → Bool)
    (items : List β) :
    (items.map f).splitOnP separates =
      (items.splitOnP (separates ∘ f)).map (List.map f) := by
  induction items with
  | nil => rfl
  | cons item items ih =>
      rw [List.map_cons, List.splitOnP_cons_eq_if_modifyHead,
        List.splitOnP_cons_eq_if_modifyHead, ih]
      obtain ⟨first, others, split⟩ :=
        List.exists_cons_of_ne_nil
          (List.splitOnP_ne_nil (separates ∘ f) items)
      rw [split]
      by_cases here : separates (f item) = true <;> simp [here]

theorem splitOn_append_of_notMem [BEq α] [LawfulBEq α] {separator : α}
    {front : List α} (plain : separator ∉ front) (text : List α) :
    (front ++ text).splitOn separator =
      (text.splitOn separator).modifyHead (front ++ ·) := by
  induction front with
  | nil =>
      obtain ⟨first, others, segments⟩ :=
        List.exists_cons_of_ne_nil (List.splitOn_ne_nil separator text)
      rw [List.nil_append, segments]
      rfl
  | cons c front ih =>
      rw [List.mem_cons, not_or] at plain
      have other : (c == separator) = false :=
        beq_false_of_ne fun same => plain.1 same.symm
      rw [List.cons_append, List.splitOn_cons_eq_if_modifyHead, other,
        if_neg Bool.false_ne_true, ih plain.2, List.modifyHead_modifyHead]
      rfl

/-- Cutting a text that is written item by item, when one item is written as
the separator and no other one contains it. -/
theorem splitOn_flatMap {β : Type u} [BEq α] [LawfulBEq α] [BEq β] [LawfulBEq β]
    {write : β → List α} {separator : α} {cut : β} (cuts : write cut = [separator])
    {items : List β}
    (plain : ∀ item ∈ items, item ≠ cut → separator ∉ write item) :
    (items.flatMap write).splitOn separator =
      (items.splitOn cut).map (List.flatMap write) := by
  induction items with
  | nil => rfl
  | cons item items ih =>
      have later := ih fun other member =>
        plain other (List.mem_cons_of_mem _ member)
      rw [List.flatMap_cons, List.splitOn_cons_eq_if_modifyHead]
      by_cases here : item = cut
      · rw [here, cuts, List.singleton_append,
          List.splitOn_cons_eq_if_modifyHead, if_pos (beq_self_eq_true _),
          if_pos (beq_self_eq_true _), later]
        rfl
      · rw [splitOn_append_of_notMem (plain item List.mem_cons_self here),
          if_neg (by simpa using here), later]
        obtain ⟨first, others, segments⟩ :=
          List.exists_cons_of_ne_nil (List.splitOn_ne_nil cut items)
        rw [segments]
        rfl

@[simp] theorem pieces_nil : pieces ([] : List (α × Bool)) = [[]] :=
  rfl

@[simp] theorem pieces_cons_true (c : α) (marked : List (α × Bool)) :
    pieces ((c, true) :: marked) = [] :: pieces marked := by
  simp [pieces, List.splitOnP_cons_eq_if_modifyHead]

@[simp] theorem pieces_cons_false (c : α) (marked : List (α × Bool)) :
    pieces ((c, false) :: marked) =
      (pieces marked).modifyHead (c :: ·) := by
  unfold pieces
  rw [List.splitOnP_cons_eq_if_modifyHead]
  obtain ⟨first, others, split⟩ :=
    List.exists_cons_of_ne_nil (List.splitOnP_ne_nil Prod.snd marked)
  simp [split]

theorem pieces_ne_nil (marked : List (α × Bool)) : pieces marked ≠ [] := by
  simp [pieces, List.splitOnP_ne_nil]

variable {blank : α → Bool}

def entries (blank : α → Bool) (marked : List (α × Bool)) : List (List α) :=
  ((pieces marked).map (trim blank)).filter fun text => !text.isEmpty

/-- The entries when some text was read before. -/
def entriesFrom (blank : α → Bool) (read : List α)
    (marked : List (α × Bool)) : List (List α) :=
  (((pieces marked).modifyHead (read ++ ·)).map (trim blank)).filter
    fun text => !text.isEmpty

theorem entriesFrom_nil (marked : List (α × Bool)) :
    entriesFrom blank [] marked = entries blank marked := by
  obtain ⟨first, others, split⟩ :=
    List.exists_cons_of_ne_nil (pieces_ne_nil marked)
  simp [entriesFrom, entries, split]

theorem entriesFrom_end (read : List α) :
    entriesFrom blank read [] =
      if trim blank read = [] then [] else [trim blank read] := by
  by_cases empty : trim blank read = [] <;> simp [entriesFrom, empty]

theorem entriesFrom_cons_false (read : List α) (c : α)
    (marked : List (α × Bool)) :
    entriesFrom blank read ((c, false) :: marked) =
      entriesFrom blank (read ++ [c]) marked := by
  obtain ⟨first, others, split⟩ :=
    List.exists_cons_of_ne_nil (pieces_ne_nil marked)
  simp [entriesFrom, split]

theorem entriesFrom_cons_true (read : List α) (c : α)
    (marked : List (α × Bool)) :
    entriesFrom blank read ((c, true) :: marked) =
      (if trim blank read = [] then [] else [trim blank read]) ++
        entries blank marked := by
  by_cases empty : trim blank read = [] <;>
    simp [entriesFrom, entries, empty]

theorem entriesFrom_append {front : List (α × Bool)}
    (unmarked : ∀ entry ∈ front, entry.2 = false) (read : List α)
    (marked : List (α × Bool)) :
    entriesFrom blank read (front ++ marked) =
      entriesFrom blank (read ++ front.map Prod.fst) marked := by
  induction front generalizing read with
  | nil => simp
  | cons entry front ih =>
      obtain ⟨c, mark⟩ := entry
      obtain ⟨here, rest⟩ := List.forall_mem_cons.mp unmarked
      cases here
      rw [List.cons_append, entriesFrom_cons_false, ih rest]
      simp

/-- The entries and the separators are the text, as far as it is not
blank. -/
theorem solid_entries (marked : List (α × Bool)) :
    solid blank (entries blank marked).flatten =
      solid blank ((marked.filter fun entry => !entry.2).map Prod.fst) := by
  have from' : ∀ read, solid blank (entriesFrom blank read marked).flatten =
      solid blank (read ++
        (marked.filter fun entry => !entry.2).map Prod.fst) := by
    induction marked with
    | nil =>
        intro read
        by_cases empty : trim blank read = []
        · simp [entriesFrom, empty, trim_eq_nil_iff.mp empty]
        · simp [entriesFrom, empty]
    | cons entry marked ih =>
        intro read
        obtain ⟨c, mark⟩ := entry
        cases mark with
        | false =>
            rw [entriesFrom_cons_false, ih]
            simp
        | true =>
            have rest := ih []
            rw [entriesFrom_nil, List.nil_append] at rest
            rw [entriesFrom_cons_true, List.flatten_append, solid_append,
              rest]
            by_cases empty : trim blank read = []
            · simp [empty, solid_append, trim_eq_nil_iff.mp empty]
            · simp [empty, solid_append]
  have whole := from' []
  rwa [entriesFrom_nil, List.nil_append] at whole

section Determined

variable {separator : α}

/-- No piece has the separator as its first element that is not blank. -/
def Prompt (blank : α → Bool) (separator : α) (read : List α)
    (marked : List (α × Bool)) : Prop :=
  ∀ piece ∈ (pieces marked).modifyHead (read ++ ·),
    (solid blank piece).head? ≠ some separator

theorem prompt_nil_iff {read : List α} :
    Prompt blank separator read [] ↔
      (solid blank read).head? ≠ some separator := by
  simp [Prompt]

theorem prompt_cons_false_iff {read : List α} {c : α}
    {marked : List (α × Bool)} :
    Prompt blank separator read ((c, false) :: marked) ↔
      Prompt blank separator (read ++ [c]) marked := by
  obtain ⟨first, others, split⟩ :=
    List.exists_cons_of_ne_nil (pieces_ne_nil marked)
  simp [Prompt, split]

theorem prompt_cons_true_iff {read : List α} {c : α}
    {marked : List (α × Bool)} :
    Prompt blank separator read ((c, true) :: marked) ↔
      (solid blank read).head? ≠ some separator ∧
        Prompt blank separator [] marked := by
  obtain ⟨first, others, split⟩ :=
    List.exists_cons_of_ne_nil (pieces_ne_nil marked)
  simp [Prompt, split]

/-- A separator that only one of two readings marks shows in the entries: in
the other reading its entry is longer. -/
theorem entries_ne_of_missed (solidSeparator : blank separator = false)
    {read : List α} {first second : List (α × Bool)}
    (prompt : Prompt blank separator read ((separator, false) :: second)) :
    entriesFrom blank read ((separator, true) :: first) ≠
      entriesFrom blank read ((separator, false) :: second) := by
  intro equal
  obtain ⟨piece, others, split⟩ :=
    List.exists_cons_of_ne_nil (pieces_ne_nil second)
  have longer : solid blank (read ++ [separator] ++ piece) =
      solid blank read ++ separator :: solid blank piece := by
    simp [solid, solidSeparator]
  have nonempty : trim blank (read ++ [separator] ++ piece) ≠ [] := by
    intro empty
    have none := trim_eq_nil_iff.mp empty
    rw [longer] at none
    simp at none
  have right : entriesFrom blank read ((separator, false) :: second) =
      trim blank (read ++ [separator] ++ piece) ::
        (others.map (trim blank)).filter fun text => !text.isEmpty := by
    rw [entriesFrom_cons_false, entriesFrom, split]
    simp only [List.modifyHead_cons, List.map_cons]
    rw [List.filter_cons_of_pos (by simpa using nonempty)]
  rw [right, entriesFrom_cons_true] at equal
  by_cases empty : trim blank read = []
  · have begins := prompt_cons_false_iff.mp prompt
      (read ++ [separator] ++ piece) (by
      rw [split]
      exact List.mem_cons_self)
    apply begins
    rw [longer, trim_eq_nil_iff.mp empty]
    rfl
  · rw [if_neg empty] at equal
    have heads := congrArg (solid blank) (List.cons.inj equal).1
    rw [solid_trim, solid_trim, longer] at heads
    have lengths := congrArg List.length heads
    rw [List.length_append, List.length_cons] at lengths
    omega

/-- Readings of one text with the same entries mark the same separators. -/
theorem marks_of_entries (solidSeparator : blank separator = false)
    {first second : List (α × Bool)} {read : List α}
    (sameText : first.map Prod.fst = second.map Prod.fst)
    (marksFirst : ∀ entry ∈ first, entry.2 = true → entry.1 = separator)
    (marksSecond : ∀ entry ∈ second, entry.2 = true → entry.1 = separator)
    (promptFirst : Prompt blank separator read first)
    (promptSecond : Prompt blank separator read second)
    (equal : entriesFrom blank read first = entriesFrom blank read second) :
    first = second := by
  induction first generalizing second read with
  | nil => exact (List.map_eq_nil_iff.mp sameText.symm).symm
  | cons entry first ih =>
      cases second with
      | nil => cases sameText
      | cons other second =>
          obtain ⟨c, mark⟩ := entry
          obtain ⟨d, otherMark⟩ := other
          rw [List.map_cons, List.map_cons, List.cons.injEq] at sameText
          obtain ⟨rfl, sameRest⟩ := sameText
          obtain ⟨hereFirst, restFirst⟩ := List.forall_mem_cons.mp marksFirst
          obtain ⟨hereSecond, restSecond⟩ :=
            List.forall_mem_cons.mp marksSecond
          cases mark with
          | false =>
              cases otherMark with
              | false =>
                  rw [entriesFrom_cons_false, entriesFrom_cons_false]
                    at equal
                  rw [ih sameRest restFirst restSecond
                    (prompt_cons_false_iff.mp promptFirst)
                    (prompt_cons_false_iff.mp promptSecond) equal]
              | true =>
                  cases hereSecond rfl
                  exact (entries_ne_of_missed solidSeparator promptFirst
                    equal.symm).elim
          | true =>
              cases otherMark with
              | false =>
                  cases hereFirst rfl
                  exact (entries_ne_of_missed solidSeparator promptSecond
                    equal).elim
              | true =>
                  rw [entriesFrom_cons_true, entriesFrom_cons_true,
                    List.append_cancel_left_eq, ← entriesFrom_nil,
                    ← entriesFrom_nil] at equal
                  rw [ih sameRest restFirst restSecond
                    (prompt_cons_true_iff.mp promptFirst).2
                    (prompt_cons_true_iff.mp promptSecond).2 equal]

/-- Readings of one text that mark the same separators are the same. -/
theorem marked_ext {first second : List (α × Bool)}
    (sameText : first.map Prod.fst = second.map Prod.fst)
    (marksFirst : ∀ entry ∈ first, entry.2 = true → entry.1 = separator)
    (marksSecond : ∀ entry ∈ second, entry.2 = true → entry.1 = separator)
    (agree : ∀ index : Nat, first[index]? = some (separator, true) ↔
      second[index]? = some (separator, true)) : first = second := by
  apply List.ext_getElem?
  intro index
  have texts : first[index]?.map Prod.fst = second[index]?.map Prod.fst := by
    rw [← List.getElem?_map, ← List.getElem?_map, sameText]
  have same := agree index
  cases left : first[index]? with
  | none => cases right : second[index]? <;> simp [left, right] at texts ⊢
  | some entry =>
      cases right : second[index]? with
      | none => simp [left, right] at texts
      | some other =>
          obtain ⟨c, mark⟩ := entry
          obtain ⟨d, otherMark⟩ := other
          have sameChar : c = d := by simpa [left, right] using texts
          subst sameChar
          have only := marksFirst _ (List.mem_of_getElem? left)
          have onlyOther := marksSecond _ (List.mem_of_getElem? right)
          rw [left, right] at same
          cases mark <;> cases otherMark <;> simp_all

def weight [DecidableEq α] (blank : α → Bool) (separator : α)
    (text : List α) : Nat :=
  (solid blank text).countP (· ≠ separator)

theorem weight_congr [DecidableEq α] {text other : List α}
    (same : solid blank text = solid blank other) :
    weight blank separator text = weight blank separator other :=
  congrArg (List.countP _) same

theorem weight_flatten [DecidableEq α] (texts : List (List α)) :
    weight blank separator texts.flatten =
      (texts.map (weight blank separator)).sum := by
  induction texts with
  | nil => rfl
  | cons text texts ih =>
      rw [List.flatten_cons, weight, solid_append, List.countP_append]
      rw [List.map_cons, List.sum_cons, ← ih]
      rfl

theorem weight_cons [DecidableEq α] (c : α) (text : List α) :
    weight blank separator (c :: text) =
      weight blank separator text +
        if blank c = false ∧ c ≠ separator then 1 else 0 := by
  unfold weight solid
  cases isBlank : blank c with
  | true => simp [isBlank]
  | false => simp [isBlank, List.countP_cons]

theorem weight_unmarked [DecidableEq α] {marked : List (α × Bool)}
    (separators : ∀ entry ∈ marked, entry.2 = true → entry.1 = separator) :
    weight blank separator
        ((marked.filter fun entry => !entry.2).map Prod.fst) =
      weight blank separator (marked.map Prod.fst) := by
  induction marked with
  | nil => rfl
  | cons entry marked ih =>
      obtain ⟨here, rest⟩ := List.forall_mem_cons.mp separators
      obtain ⟨c, mark⟩ := entry
      cases mark with
      | false =>
          rw [List.filter_cons_of_pos (by rfl), List.map_cons, List.map_cons,
            weight_cons, weight_cons, ih rest]
      | true =>
          cases here rfl
          rw [List.filter_cons_of_neg (by simp), List.map_cons, weight_cons,
            ih rest]
          simp

/-- A piece that is not blank and does not begin with a separator weighs
something. -/
theorem weight_pos [DecidableEq α] {piece : List α}
    (present : solid blank piece ≠ [])
    (begins : (solid blank piece).head? ≠ some separator) :
    0 < weight blank separator piece := by
  obtain ⟨c, rest, split⟩ := List.exists_cons_of_ne_nil present
  apply List.countP_pos_iff.mpr
  refine ⟨c, ?_, ?_⟩
  · rw [split]
    exact List.mem_cons_self
  · rw [split] at begins
    simpa using begins

end Determined

/-- Where a selection weighs as much as the whole, nothing of weight is left
out. -/
theorem keep_of_sum_filter {β : Type u} {keep : β → Bool} {size : β → Nat}
    {items : List β} (positive : ∀ item ∈ items, 0 < size item)
    (equal : ((items.filter keep).map size).sum = (items.map size).sum) :
    ∀ item ∈ items, keep item = true := by
  have below : ∀ list : List β,
      ((list.filter keep).map size).sum ≤ (list.map size).sum := by
    intro list
    induction list with
    | nil => exact Nat.le_refl 0
    | cons item list ih =>
        rw [List.filter_cons]
        split
        · simpa using ih
        · rw [List.map_cons, List.sum_cons]
          omega
  induction items with
  | nil => simp
  | cons item items ih =>
      obtain ⟨here, rest⟩ := List.forall_mem_cons.mp positive
      rw [List.forall_mem_cons]
      rw [List.filter_cons] at equal
      split at equal
      · rename_i kept
        refine ⟨kept, ih rest ?_⟩
        simpa using equal
      · have le := below items
        rw [List.map_cons, List.sum_cons] at equal
        omega

section Scanner

universe v

variable {σ : Type v} (next : σ → α → List α → σ)
  (separates : σ → α → List α → Bool)

/-- A scanner sees its state, an element and the text behind it. -/
def scan (state : σ) : List α → List (α × Bool)
  | [] => []
  | c :: rest =>
      (c, separates state c rest) :: scan (next state c rest) rest

theorem scan_fst (state : σ) (text : List α) :
    (scan next separates state text).map Prod.fst = text := by
  induction text generalizing state with
  | nil => rfl
  | cons c text ih => exact congrArg (List.cons c) (ih (next state c text))

theorem scan_separator {separator : α}
    (only : ∀ state c rest, separates state c rest = true → c = separator)
    (state : σ) (text : List α) :
    ∀ entry ∈ scan next separates state text,
      entry.2 = true → entry.1 = separator := by
  induction text generalizing state with
  | nil => simp [scan]
  | cons c text ih =>
      rw [scan, List.forall_mem_cons]
      exact ⟨only state c text, ih (next state c text)⟩

/-- A scanner that stays in its first state over blanks, goes back to it behind
a separator and marks every separator there has prompt pieces. -/
theorem prompt_scan {separator : α} {start : σ}
    (blanks : ∀ c rest, blank c = true → next start c rest = start)
    (marked : ∀ c rest, separates start c rest = false → c ≠ separator)
    (restarts : ∀ state c rest, separates state c rest = true →
      next state c rest = start)
    {state : σ} {read : List α}
    (fresh : solid blank read = [] → state = start)
    (begins : (solid blank read).head? ≠ some separator) (text : List α) :
    Prompt blank separator read (scan next separates state text) := by
  induction text generalizing state read with
  | nil => exact prompt_nil_iff.mpr begins
  | cons c text ih =>
      rw [scan]
      cases cut : separates state c text with
      | true =>
          apply prompt_cons_true_iff.mpr
          refine ⟨begins, ?_⟩
          apply ih
          · intro _
            exact restarts state c text cut
          · simp
      | false =>
          apply prompt_cons_false_iff.mpr
          by_cases isBlank : blank c = true
          · have same : solid blank (read ++ [c]) = solid blank read := by
              simp [solid, isBlank]
            apply ih
            · intro empty
              rw [same] at empty
              rw [fresh empty]
              exact blanks c text isBlank
            · rw [same]
              exact begins
          · have more : solid blank (read ++ [c]) =
                solid blank read ++ [c] := by
              simp [solid, isBlank]
            apply ih
            · intro empty
              rw [more] at empty
              simp at empty
            · rw [more]
              cases nothing : solid blank read with
              | nil =>
                  rw [fresh nothing] at cut
                  simpa using marked c text cut
              | cons first others =>
                  rw [nothing] at begins
                  simpa using begins

end Scanner

end Cutting
