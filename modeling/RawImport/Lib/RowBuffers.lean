import Mathlib.Data.List.Induction

/-!
# Rows fetched through shared buffers

A loop over a result set binds one buffer to each column.  A value overwrites
the buffer of its column and a NULL leaves it, so what a row seems to hold in a
column is the last value of that column down to the row.
-/

namespace RowBuffers

universe u

variable {α : Type u}

def fetchRow (buffers : List α) (row : List (Option α)) : List α :=
  List.zipWith (fun buffer value => value.getD buffer) buffers row

def fetchRows : List α → List (List (Option α)) → List (List α)
  | _, [] => []
  | buffers, row :: rows =>
      fetchRow buffers row :: fetchRows (fetchRow buffers row) rows

def lastValue (column : Nat) (rows : List (List (Option α))) : Option α :=
  rows.reverse.findSome? fun row => row.getD column none

variable {width column : Nat} {buffers : List α} {initial value : α}
  {row : List (Option α)} {rows above below : List (List (Option α))}

@[simp] theorem length_fetchRow :
    (fetchRow buffers row).length = min buffers.length row.length :=
  List.length_zipWith

@[simp] theorem length_fetchRows :
    (fetchRows buffers rows).length = rows.length := by
  induction rows generalizing buffers with
  | nil => rfl
  | cons row rows ih => rw [fetchRows, List.length_cons, ih, List.length_cons]

theorem getD_fetchRow (bound : column < buffers.length)
    (inside : column < row.length) :
    (fetchRow buffers row).getD column initial =
      (row.getD column none).getD (buffers.getD column initial) := by
  unfold fetchRow
  rw [List.getD_eq_getElem?_getD, List.getElem?_zipWith,
    List.getD_eq_getElem?_getD, List.getD_eq_getElem?_getD,
    List.getElem?_eq_getElem bound, List.getElem?_eq_getElem inside]
  rfl

/-- The buffers behind some rows are those of the last of them. -/
def buffersBehind (buffers : List α) (rows : List (List (Option α))) :
    List α :=
  rows.foldl fetchRow buffers

theorem length_buffersBehind (uniform : ∀ row ∈ rows, row.length = width)
    (bound : buffers.length = width) :
    (buffersBehind buffers rows).length = width := by
  induction rows generalizing buffers with
  | nil => exact bound
  | cons row rows ih =>
      apply ih fun other member => uniform other (List.mem_cons_of_mem _ member)
      rw [length_fetchRow, bound, uniform row List.mem_cons_self,
        Nat.min_self]

theorem lastValue_concat :
    lastValue column (rows ++ [row]) =
      (row.getD column none).or (lastValue column rows) := by
  unfold lastValue
  rw [List.reverse_append, List.reverse_singleton, List.singleton_append,
    List.findSome?_cons]
  cases row.getD column none with
  | none => rfl
  | some value => rfl

theorem head?_fetchRows :
    (fetchRows buffers rows).head? = rows.head?.map (fetchRow buffers) := by
  cases rows with
  | nil => rfl
  | cons row rows => rfl

theorem mem_fetchRows {fetched : List α} :
    fetched ∈ fetchRows buffers rows ↔
      ∃ above row below, rows = above ++ row :: below ∧
        fetched = fetchRow (buffersBehind buffers above) row := by
  induction rows generalizing buffers with
  | nil =>
      constructor
      · intro member
        cases member
      · intro found
        obtain ⟨above, row, below, split, -⟩ := found
        cases above <;> cases split
  | cons first rows ih =>
      rw [fetchRows, List.mem_cons, ih]
      constructor
      · intro found
        rcases found with rfl | ⟨above, row, below, rfl, rfl⟩
        · exact ⟨[], first, rows, rfl, rfl⟩
        · exact ⟨first :: above, row, below, rfl, rfl⟩
      · intro found
        obtain ⟨above, row, below, split, rfl⟩ := found
        cases above with
        | nil =>
            cases split
            exact .inl rfl
        | cons other above =>
            cases split
            exact .inr ⟨above, row, below, rfl, rfl⟩

theorem getD_buffersBehind (uniform : ∀ row ∈ rows, row.length = width)
    (bound : buffers.length = width) (inside : column < width) :
    (buffersBehind buffers rows).getD column initial =
      (lastValue column rows).getD (buffers.getD column initial) := by
  induction rows using List.reverseRecOn with
  | nil => rfl
  | append_singleton rows row ih =>
      have before : ∀ row ∈ rows, row.length = width := by
        intro other member
        exact uniform other (List.mem_append_left _ member)
      have last : row.length = width :=
        uniform row (List.mem_append_right _ List.mem_cons_self)
      have behind : buffersBehind buffers (rows ++ [row]) =
          fetchRow (buffersBehind buffers rows) row := by
        unfold buffersBehind
        rw [List.foldl_append]
        rfl
      rw [behind, getD_fetchRow, ih before, lastValue_concat]
      · cases row.getD column none with
        | none => rfl
        | some value => rfl
      · rw [length_buffersBehind before bound]
        exact inside
      · rw [last]
        exact inside

/-- What a row shows in a column: its own value, or the last one above. -/
theorem getD_fetchRows (uniform : ∀ row ∈ above, row.length = width)
    (length : row.length = width) (bound : buffers.length = width)
    (inside : column < width) :
    (fetchRow (buffersBehind buffers above) row).getD column initial =
      (row.getD column none).getD
        ((lastValue column above).getD (buffers.getD column initial)) := by
  rw [getD_fetchRow, getD_buffersBehind uniform bound inside]
  · rw [length_buffersBehind uniform bound]
    exact inside
  · rw [length]
    exact inside

end RowBuffers
