import Mathlib.Data.List.Sort
import RawImport.Lib.Paging
import RawImport.Lib.RowBuffers
import RawImport.Store.Client

/-!
# The table behind the list of imports

`imports` and `sequences` as the statements of the API select from them, with
NULL in every column that allows it, and the two ways a row becomes a record:
the loop over a prepared statement with one buffer to each column, and the row
of pointers that a plain query gives.
-/

namespace RawImport

open Cxx Paging RowBuffers

/-- A row of `imports`, without the columns no statement here selects. -/
structure ListedRow where
  id : Nat
  sequenceId : Nat
  sourcePath : Path := ""
  sourceHash : String := ""
  outputPath : Path := ""
  outputHash : String := ""
  cameraModel : Option String := none
  captureDate : Option String := none
  captureTime : Option String := none
  folderSchema : Option String := none
  conversionSettings : Option String := none
  status : Option ImportStatus := none
  orientation : Option Nat := none
  createdAt : Option String := none
  completedAt : Option String := none
  deriving DecidableEq, Repr

namespace ListedRow

/-- `(SELECT name FROM sequences WHERE id=sequence_id)`. -/
def sequenceName (sequences : List SequenceRow) (row : ListedRow) :
    Option String :=
  (sequences.find? (·.id == row.sequenceId)).map (·.name)

/-- The sixteen columns every statement selects, as text. -/
def columns (sequences : List SequenceRow) (row : ListedRow) :
    List (Option Text) :=
  [some (toString row.id).toList,
    some (toString row.sequenceId).toList,
    some row.sourcePath.toList,
    some row.sourceHash.toList,
    some row.outputPath.toList,
    some row.outputHash.toList,
    row.cameraModel.map String.toList,
    row.captureDate.map String.toList,
    row.captureTime.map String.toList,
    row.folderSchema.map String.toList,
    row.conversionSettings.map String.toList,
    row.status.map fun status => status.toText.toList,
    row.orientation.map fun orientation => (toString orientation).toList,
    row.createdAt.map String.toList,
    row.completedAt.map String.toList,
    (row.sequenceName sequences).map String.toList]

end ListedRow

/-- The two tables; `id` is the primary key of `imports`. -/
structure Catalog where
  imports : List ListedRow
  sequences : List SequenceRow
  distinct : (imports.map ListedRow.id).Nodup

def statusOf (st : String) : ImportStatus :=
  if st = "pending" then .pending
  else if st = "converting" then .converting
  else if st = "failed" then .failed
  else if st = "restored" then .restored
  else if st = "legacy" then .legacy
  else .completed

/-- `row[i] ? std::string(row[i], lengths[i]) : ""`. -/
def pointedText : Option Text → String
  | none => ""
  | some text => String.ofList text

/-- `row[i] ? read(row[i]) : 0`. -/
def pointedNumber (read : Text → Int) : Option Text → Int
  | none => 0
  | some text => read text

/-- `row_to_record`; a NULL is a null pointer. -/
def rowToRecord (row : List (Option Text)) : ImportRecord :=
  let str (i : Nat) : String := pointedText (row.getD i none)
  { id := pointedNumber strtoll (row.getD 0 none)
    sequenceId := pointedNumber strtoll (row.getD 1 none)
    sourcePath := str 2
    sourceHash := str 3
    outputPath := str 4
    outputHash := str 5
    cameraModel := str 6
    captureDate := str 7
    captureTime := str 8
    folderSchema := str 9
    conversionSettings := str 10
    status := statusOf (str 11)
    orientation := pointedNumber atoi (row.getD 12 none)
    createdAt := str 13
    completedAt := str 14
    sequenceName := str 15 }

namespace Catalog

variable (table : Catalog)

def columns (row : ListedRow) : List (Option Text) :=
  row.columns table.sequences

/-- No value is longer than `kBuf`; a longer one ends the loop. -/
def fits (row : ListedRow) : Bool :=
  (table.columns row).all fun value =>
    value.all fun text => decide (text.length ≤ 8192)

/-- What the loop over `mysql_stmt_fetch` leaves of a result set. -/
def fetched (rows : List ListedRow) : List (List Text) :=
  fetchRows (List.replicate 16 [])
    ((rows.takeWhile table.fits).map table.columns)

/-- What `ListImports` makes of rows that all fit. -/
def records (rows : List ListedRow) : List ImportRecord :=
  (fetchRows (List.replicate 16 []) (rows.map table.columns)).map vecToRecord

/-- `status=?` and `camera_model=?`; an empty filter is left out. -/
def selects (mariadb : Mariadb) (status camera : String)
    (row : ListedRow) : Bool :=
  (status == "" ||
      row.status.any fun stored => mariadb.same stored.toText status) &&
    (camera == "" ||
      row.cameraModel.any fun stored => mariadb.same stored camera)

/-- The selected rows, `ORDER BY id DESC`. -/
def matching (mariadb : Mariadb) (status camera : String) :
    List ListedRow :=
  (table.imports.filter (selects mariadb status camera)).insertionSort
    fun left right => right.id ≤ left.id

def answer (mariadb : Mariadb) : Statement → Reply
  | .importBySequence name =>
      { rows := table.fetched (table.imports.filter fun row =>
          (row.sequenceName table.sequences).any fun stored =>
            mariadb.same stored name) }
  | .importByHash sha =>
      { rows := table.fetched ((table.imports.filter fun row =>
          mariadb.same row.sourceHash sha ||
            mariadb.same row.outputHash sha).take 1) }
  | .importBySourcePath path =>
      { rows := table.fetched ((table.imports.filter fun row =>
          mariadb.same row.sourcePath path).take 1) }
  | .importByOutputPath path =>
      { rows := table.fetched ((table.imports.filter fun row =>
          mariadb.same row.outputPath path).take 1) }
  | .countImports none =>
      { rows := [[(toString table.imports.length).toList]] }
  | .countImports (some status) =>
      { rows := [[(toString (table.imports.countP fun row =>
          row.status.any fun stored =>
            mariadb.same stored.toText status.toText)).toList]] }
  | .importsPage status camera limit offset =>
      -- A negative number in `LIMIT` or `OFFSET` is no valid statement.
      if 0 ≤ limit ∧ 0 ≤ offset then
        { rows := table.fetched
            (slice (table.matching mariadb status camera) offset.toNat
              limit.toNat) }
      else { executed := false }
  | .insertReconversion .. => { executed := false }
  | .updateOutputHash .. => { executed := false }
  | .insertPreviewEdit .. => { executed := false }

def client (mariadb : Mariadb) : Client Catalog where
  execute statement table := (table.answer mariadb statement, table)
  ping table := (true, table)

/-- `GetImportById`. -/
def getImportById (id : Int) : Option ImportRecord :=
  (table.imports.find? fun row => decide ((row.id : Int) = id)).map
    fun row => rowToRecord (table.columns row)

/-- The offset in the statement of `ListImports`, if the server takes it. -/
def requestedOffset (page limit : Int) : Option Nat :=
  let offset := Int.bmod ((page - 1) * limit) (2 ^ 32)
  if 0 ≤ limit ∧ 0 ≤ offset then some offset.toNat else none

/-- The rows whose records `ListImports` returns. -/
def pageRows (mariadb : Mariadb) (page limit : Int)
    (status camera : String) : List ListedRow :=
  shown table.fits (table.matching mariadb status camera) limit.toNat
    (requestedOffset page limit)

variable {table : Catalog} {mariadb : Mariadb} {status camera : String}
  {row : ListedRow}

theorem length_columns : (table.columns row).length = 16 := rfl

theorem listImports_eq (page limit : Int) :
    Store.listImports (client mariadb) page limit status camera table =
      (table.records (table.pageRows mariadb page limit status camera),
        table) := by
  unfold Store.listImports Store.execSelect records pageRows requestedOffset
  simp only [client, answer]
  split
  · rfl
  · rfl

@[simp] theorem length_records (rows : List ListedRow) :
    (table.records rows).length = rows.length := by
  unfold records
  rw [List.length_map, length_fetchRows, List.length_map]

theorem mem_matching :
    row ∈ table.matching mariadb status camera ↔
      row ∈ table.imports ∧ selects mariadb status camera row = true := by
  unfold matching
  rw [List.mem_insertionSort, List.mem_filter]

theorem nodup_imports : table.imports.Nodup :=
  table.distinct.of_map _

theorem nodup_matching : (table.matching mariadb status camera).Nodup := by
  unfold matching
  rw [(List.perm_insertionSort _ _).nodup_iff]
  exact nodup_imports.filter _

theorem matching_descends :
    (table.matching mariadb status camera).Pairwise
      fun above below => below.id < above.id := by
  have : Std.Total fun left right : ListedRow => right.id ≤ left.id :=
    ⟨fun left right => Nat.le_total right.id left.id⟩
  have : IsTrans ListedRow fun left right => right.id ≤ left.id :=
    ⟨fun _ _ _ first second => Nat.le_trans second first⟩
  have sorted := List.pairwise_insertionSort
    (fun left right : ListedRow => right.id ≤ left.id)
    (table.imports.filter (selects mariadb status camera))
  have keys : (table.matching mariadb status camera).Pairwise
      fun above below => above.id ≠ below.id := by
    have distinct := table.distinct
    rw [List.nodup_iff_pairwise_ne, List.pairwise_map] at distinct
    exact (List.perm_insertionSort _ _).symm.pairwise
      (distinct.filter _) fun unequal => unequal.symm
  exact (sorted.and keys).imp fun both =>
    Nat.lt_of_le_of_ne both.1 both.2.symm

theorem eq_of_id_eq {left right : ListedRow} (inLeft : left ∈ table.imports)
    (inRight : right ∈ table.imports) (same : left.id = right.id) :
    left = right :=
  List.inj_on_of_nodup_map table.distinct inLeft inRight same

theorem getImportById_of_mem (member : row ∈ table.imports) :
    table.getImportById row.id = some (rowToRecord (table.columns row)) := by
  unfold getImportById
  cases found : table.imports.find? fun other =>
      decide ((other.id : Int) = row.id) with
  | none =>
      have absent := List.find?_eq_none.mp found row member
      exact (absent (decide_eq_true rfl)).elim
  | some other =>
      have same : (other.id : Int) = row.id := by
        simpa using List.find?_some found
      have equal := eq_of_id_eq (List.mem_of_find?_eq_some found) member
        (Int.ofNat.inj same)
      rw [equal]
      rfl

end Catalog

end RawImport
