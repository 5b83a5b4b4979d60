import Mathlib.Tactic.IntervalCases
import RawImport.Store.Listing

/-!
# Two decoders of one row

`ListImports` reads its rows through buffers that all rows share, and
`GetImportById` through pointers.  Both decode the same columns, so a record of
a page is the stored one unless a NULL shows what a row above left behind.
-/

namespace RawImport

open Cxx RowBuffers

namespace Catalog

theorem getD_map_getD (row : List (Option Text)) (column : Nat) :
    (row.map fun value => value.getD []).getD column [] =
      (row.getD column none).getD [] := by
  rw [List.getD_eq_getElem?_getD, List.getD_eq_getElem?_getD,
    List.getElem?_map]
  cases row[column]? with
  | none => rfl
  | some value => rfl

theorem pointedText_eq (pointer : Option Text) :
    pointedText pointer = String.ofList (pointer.getD []) := by
  cases pointer with
  | none => rfl
  | some text => rfl

theorem pointedNumber_eq {read : Text → Int} (empty : read [] = 0)
    (pointer : Option Text) :
    pointedNumber read pointer = read (pointer.getD []) := by
  cases pointer with
  | none => exact empty.symm
  | some text => rfl

theorem rowToRecord_eq {row : List (Option Text)} (width : row.length = 16) :
    rowToRecord row = vecToRecord (row.map fun value => value.getD []) := by
  unfold rowToRecord vecToRecord
  simp only [pointedText_eq, pointedNumber_eq strtoll_nil,
    pointedNumber_eq atoi_nil, getD_map_getD, List.length_map, width,
    Nat.reduceLT, if_true]
  rfl

/-- Two texts that the decoders cannot tell apart in a column. -/
def Alike (column : Nat) (left right : Text) : Prop :=
  if column ≤ 1 then strtoll left = strtoll right
  else if column = 11 then
    statusOf (String.ofList left) = statusOf (String.ofList right)
  else if column = 12 then atoi left = atoi right
  else left = right

theorem vecToRecord_eq_iff {left right : List Text}
    (leftWidth : left.length = 16) (rightWidth : right.length = 16) :
    vecToRecord left = vecToRecord right ↔
      ∀ column < 16,
        Alike column (left.getD column []) (right.getD column []) := by
  unfold vecToRecord
  simp only [leftWidth, rightWidth, Nat.reduceLT, if_true,
    ImportRecord.mk.injEq, String.ofList_inj, true_and]
  constructor
  · intro equal column inside
    obtain ⟨id, sequenceId, sourcePath, sourceHash, outputPath, outputHash,
      cameraModel, captureDate, captureTime, folderSchema, conversionSettings,
      status, orientation, createdAt, completedAt, sequenceName⟩ := equal
    interval_cases column
    exacts [id, sequenceId, sourcePath, sourceHash, outputPath, outputHash,
      cameraModel, captureDate, captureTime, folderSchema, conversionSettings,
      status, orientation, createdAt, completedAt, sequenceName]
  · intro alike
    exact ⟨alike 0 (by decide), alike 1 (by decide), alike 2 (by decide),
      alike 3 (by decide), alike 4 (by decide), alike 5 (by decide),
      alike 6 (by decide), alike 7 (by decide), alike 8 (by decide),
      alike 9 (by decide), alike 10 (by decide), alike 11 (by decide),
      alike 12 (by decide), alike 13 (by decide), alike 14 (by decide),
      alike 15 (by decide)⟩

@[refl] theorem Alike.refl (column : Nat) (text : Text) :
    Alike column text text := by
  unfold Alike
  split
  · rfl
  · split
    · rfl
    · split <;> rfl

variable (table : Catalog)

/-- What the buffer of a column holds behind some rows of the page. -/
def leftBehind (above : List ListedRow) (column : Nat) : Text :=
  (lastValue column (above.map table.columns)).getD []

/-- What the buffer of a column holds behind a row. -/
def shownText (above : List ListedRow) (row : ListedRow)
    (column : Nat) : Text :=
  ((table.columns row).getD column none).getD
    (table.leftBehind above column)

/-- Behind every NULL of the row, the rows above left a text that decodes like
NULL: no text, no name of another status than `completed`, no orientation but
0. -/
def NullsCovered (above : List ListedRow) (row : ListedRow) : Prop :=
  ∀ column < 16, (table.columns row).getD column none = none →
    Alike column (table.leftBehind above column) []

/-- A key of `2 ^ 63` or more is read as the greatest `int64_t`, so such a row
would have to look like the one with that key. -/
def LooksGreatest (above : List ListedRow) (row : ListedRow) : Prop :=
  ∃ stored ∈ table.imports, stored.id = 2 ^ 63 - 1 ∧
    ∀ column < 16, column ≠ 0 →
      Alike column (table.shownText above row column)
        (((table.columns stored).getD column none).getD [])

/-- The record of the row, below the rows above it. -/
def listedRecord (above : List ListedRow) (row : ListedRow) : ImportRecord :=
  vecToRecord
    (fetchRow
      (buffersBehind (List.replicate 16 []) (above.map table.columns))
      (table.columns row))

variable {table : Catalog} {above : List ListedRow} {row : ListedRow}

theorem length_shown :
    (fetchRow
      (buffersBehind (List.replicate 16 []) (above.map table.columns))
      (table.columns row)).length = 16 := by
  rw [length_fetchRow, length_buffersBehind _ List.length_replicate]
  · rfl
  · intro columns member
    obtain ⟨row, -, rfl⟩ := List.mem_map.mp member
    rfl

theorem getD_shown {column : Nat} (inside : column < 16) :
    (fetchRow
      (buffersBehind (List.replicate 16 []) (above.map table.columns))
      (table.columns row)).getD column [] =
      table.shownText above row column := by
  have initial : (List.replicate 16 ([] : Text)).getD column [] = [] := by
    rw [List.getD_eq_getElem?_getD, List.getElem?_replicate_of_lt inside]
    rfl
  have width : (table.columns row).length = 16 := length_columns
  rw [getD_fetchRows _ width List.length_replicate inside, initial]
  · rfl
  · intro columns member
    obtain ⟨row, -, rfl⟩ := List.mem_map.mp member
    rfl

theorem mem_listImports {mariadb : Mariadb} {page limit : Int}
    {status camera : String} {record : ImportRecord} :
    record ∈ (Store.listImports (client mariadb) page limit status camera
        table).1 ↔
      ∃ above row below,
        table.pageRows mariadb page limit status camera =
          above ++ row :: below ∧
        record = table.listedRecord above row := by
  rw [listImports_eq, records, List.mem_map]
  constructor
  · intro listed
    obtain ⟨buffers, member, rfl⟩ := listed
    obtain ⟨columnsAbove, columns, columnsBelow, split, rfl⟩ :=
      mem_fetchRows.mp member
    obtain ⟨above, rest, pages, rfl, others⟩ :=
      List.map_eq_append_iff.mp split
    obtain ⟨row, below, rfl, rfl, -⟩ := List.map_eq_cons_iff.mp others
    exact ⟨above, row, below, pages, rfl⟩
  · intro listed
    obtain ⟨above, row, below, pages, rfl⟩ := listed
    refine ⟨_, mem_fetchRows.mpr ⟨above.map table.columns,
      table.columns row, below.map table.columns, ?_, rfl⟩, rfl⟩
    rw [pages, List.map_append, List.map_cons]

theorem listedRecord_eq_iff {stored : ListedRow} :
    rowToRecord (table.columns stored) = table.listedRecord above row ↔
      ∀ column < 16,
        Alike column (table.shownText above row column)
          (((table.columns stored).getD column none).getD []) := by
  rw [rowToRecord_eq length_columns, eq_comm, listedRecord,
    vecToRecord_eq_iff length_shown (by rw [List.length_map]; rfl)]
  constructor
  · intro alike column inside
    have here := alike column inside
    rwa [getD_shown inside, getD_map_getD] at here
  · intro alike column inside
    rw [getD_shown inside, getD_map_getD]
    exact alike column inside

theorem listedRecord_id :
    (table.listedRecord above row).id = min (row.id : Int) (2 ^ 63 - 1) := by
  rw [← strtoll_nat]
  unfold listedRecord vecToRecord
  simp only [length_shown, getD_shown (Nat.zero_lt_succ 15), Nat.zero_lt_succ,
    if_true]
  rfl

theorem listedRecord_outputPath :
    (table.listedRecord above row).outputPath = row.outputPath := by
  unfold listedRecord vecToRecord
  simp only [getD_shown (show 4 < 16 by decide)]
  exact String.ofList_toList

/-- A row whose key is an `int64_t` is read back under this key. -/
theorem getImportById_listed_iff (member : row ∈ table.imports)
    (small : row.id < 2 ^ 63) :
    table.getImportById (table.listedRecord above row).id =
        some (table.listedRecord above row) ↔
      table.NullsCovered above row := by
  have key : min (row.id : Int) (2 ^ 63 - 1) = row.id := by omega
  rw [listedRecord_id, key, getImportById_of_mem member, Option.some_inj,
    listedRecord_eq_iff]
  unfold NullsCovered shownText
  constructor
  · intro alike column inside null
    have here := alike column inside
    rwa [null] at here
  · intro covered column inside
    cases value : (table.columns row).getD column none with
    | none => exact covered column inside value
    | some text => exact Alike.refl column text

/-- The record of a greater key is looked up under the greatest one. -/
theorem getImportById_greatest_iff (large : ¬row.id < 2 ^ 63) :
    table.getImportById (table.listedRecord above row).id =
        some (table.listedRecord above row) ↔
      table.LooksGreatest above row := by
  have key : min (row.id : Int) (2 ^ 63 - 1) = ((2 ^ 63 - 1 : Nat) : Int) := by
    omega
  rw [listedRecord_id, key]
  constructor
  · intro found
    obtain ⟨stored, there, record⟩ := Option.map_eq_some_iff.mp found
    have same : (stored.id : Int) = ((2 ^ 63 - 1 : Nat) : Int) := by
      simpa using List.find?_some there
    refine ⟨stored, List.mem_of_find?_eq_some there, Int.ofNat.inj same, ?_⟩
    intro column inside _
    exact listedRecord_eq_iff.mp record column inside
  · intro looks
    obtain ⟨stored, there, greatest, alike⟩ := looks
    rw [← greatest, getImportById_of_mem there, Option.some_inj,
      listedRecord_eq_iff]
    intro column inside
    by_cases first : column = 0
    · subst first
      change strtoll (toString row.id).toList =
        strtoll (toString stored.id).toList
      rw [strtoll_nat, strtoll_nat, key, greatest]
      rfl
    · exact alike column inside first

/-- The record of a row can be read back under its key. -/
def ReadBack (table : Catalog) (above : List ListedRow)
    (row : ListedRow) : Prop :=
  if row.id < 2 ^ 63 then table.NullsCovered above row
  else table.LooksGreatest above row

/-- Every record of a page is the one `GetImportById` returns for its key,
exactly if no NULL on the page shows a value from a row above. -/
theorem listImports_readBack_iff (table : Catalog) (mariadb : Mariadb)
    (page limit : Int) (status camera : String) :
    (∀ record ∈
        (Store.listImports (client mariadb) page limit status camera table).1,
      table.getImportById record.id = some record) ↔
      ∀ above row below,
        table.pageRows mariadb page limit status camera =
            above ++ row :: below →
          table.ReadBack above row := by
  have one : ∀ above row below,
      table.pageRows mariadb page limit status camera =
          above ++ row :: below →
        (table.getImportById (table.listedRecord above row).id =
            some (table.listedRecord above row) ↔
          table.ReadBack above row) := by
    intro above row below pages
    have member : row ∈ table.imports := by
      have onPage : row ∈
          table.pageRows mariadb page limit status camera := by
        rw [pages]
        exact List.mem_append_right _ List.mem_cons_self
      exact (mem_matching.mp (Paging.mem_of_mem_shown onPage)).1
    unfold ReadBack
    split
    · rename_i small
      exact getImportById_listed_iff member small
    · rename_i large
      exact getImportById_greatest_iff large
  constructor
  · intro agree above row below pages
    rw [← one above row below pages]
    exact agree _ (mem_listImports.mpr ⟨above, row, below, pages, rfl⟩)
  · intro covered record listed
    obtain ⟨above, row, below, pages, rfl⟩ := mem_listImports.mp listed
    exact (one above row below pages).mpr (covered above row below pages)

/-- Two imports, the older of them without a camera. -/
def namelessCamera : Catalog where
  imports :=
    [{ id := 1, sequenceId := 1 },
      { id := 2, sequenceId := 1, cameraModel := some "ILCE-7M4" }]
  sequences := [⟨1, "IMG_1"⟩]
  distinct := by decide

/-- The listing shows the camera of the newer import for both. -/
theorem listImports_camera_above :
    ¬∀ record ∈
        (Store.listImports (client Mariadb.binary) 1 50 "" ""
          namelessCamera).1,
      namelessCamera.getImportById record.id = some record := by
  decide +kernel

end Catalog

end RawImport
