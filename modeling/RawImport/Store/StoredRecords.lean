import RawImport.Store.Listing
import RawImport.Store.Statements

/-!
# What `InsertImport` stores

The row an accepted insert leaves, column by column, and the record that
`GetImportById` reads back from it.
-/

namespace RawImport

open Cxx

def ImportRow.listed (row : ImportRow) : ListedRow where
  id := row.id
  sequenceId := row.sequenceId
  sourcePath := row.sourcePath
  sourceHash := row.sourceHash
  outputPath := row.outputPath
  outputHash := row.outputHash
  cameraModel := row.cameraModel
  captureDate := row.captureDate
  captureTime := row.captureTime
  folderSchema := row.folderSchema
  conversionSettings := row.conversionSettings
  status := some row.status
  orientation := row.orientation
  createdAt := row.createdAt
  completedAt := row.completedAt

/-- The row holds the value of the record in every column that both have. -/
structure ImportRow.Holds (row : ImportRow) (record : ImportRecord) :
    Prop where
  sequenceId : (row.sequenceId : Int) = record.sequenceId
  sourcePath : row.sourcePath = record.sourcePath
  sourceHash : row.sourceHash = record.sourceHash
  outputPath : row.outputPath = record.outputPath
  outputHash : row.outputHash = record.outputHash
  cameraModel : row.cameraModel = some record.cameraModel
  captureDate : row.captureDate = Mariadb.nullable record.captureDate
  captureTime : row.captureTime = Mariadb.nullable record.captureTime
  dateSource : row.dateSource = record.dateSource
  folderSchema : row.folderSchema = some record.folderSchema
  conversionSettings : row.conversionSettings = some record.conversionSettings
  status : row.status = record.status
  orientation : row.orientation.map Int.ofNat = some record.orientation

/-- The record has the values of another in these columns. -/
structure ImportRecord.GivesBack (read record : ImportRecord) : Prop where
  sequenceId : read.sequenceId = record.sequenceId
  sourcePath : read.sourcePath = record.sourcePath
  sourceHash : read.sourceHash = record.sourceHash
  outputPath : read.outputPath = record.outputPath
  outputHash : read.outputHash = record.outputHash
  cameraModel : read.cameraModel = record.cameraModel
  captureDate : read.captureDate = record.captureDate
  captureTime : read.captureTime = record.captureTime
  dateSource : read.dateSource = record.dateSource
  folderSchema : read.folderSchema = record.folderSchema
  conversionSettings : read.conversionSettings = record.conversionSettings
  status : read.status = record.status
  orientation : read.orientation = record.orientation

namespace Db

/-- `GetImportById` with its decoder. -/
def readImport (db : Db) (id : Int) (executed : Bool) :
    Option ImportRecord :=
  (db.getImportById id executed).map fun row =>
    rowToRecord (row.listed.columns db.sequences)

/-- Every key comes from the counter, which is a `BIGINT UNSIGNED`. -/
structure Counted (db : Db) : Prop where
  below : ∀ row ∈ db.imports, row.id < db.nextImport
  bounded : db.nextImport < 2 ^ 64

variable {mariadb : Mariadb} {db : Db} {record : ImportRecord}
  {executed : Bool} {now : String}

theorem accepted_of_success
    (success : (db.insertImport mariadb record executed now).2 ≠ 0) :
    executed = true ∧ db.Accepts mariadb record := by
  by_contra refused
  rw [insertImport_refused refused] at success
  exact success rfl

theorem importRow_holds_iff (accepted : db.Accepts mariadb record) :
    (db.importRow record now).Holds record ↔ record.dateSource = .exif := by
  obtain ⟨fit, -⟩ := accepted
  obtain ⟨natural, -, -, -, -, -, -, -, -, -, unsigned, -⟩ := fit
  constructor
  · intro holds
    exact holds.dateSource.symm
  · intro exif
    constructor
    · exact Int.toNat_of_nonneg natural
    · rfl
    · rfl
    · rfl
    · rfl
    · rfl
    · rfl
    · rfl
    · exact exif.symm
    · rfl
    · rfl
    · rfl
    · exact congrArg some (Int.toNat_of_nonneg unsigned)

@[simp] theorem pointedText_map (text : Option String) :
    pointedText (text.map String.toList) = text.getD "" := by
  cases text with
  | none => rfl
  | some text => exact String.ofList_toList

theorem pointedText_toList (text : String) :
    pointedText (some text.toList) = text :=
  String.ofList_toList

theorem nullable_getD (text : String) :
    (Mariadb.nullable text).getD "" = text := by
  unfold Mariadb.nullable
  split
  · rename_i empty
    exact empty.symm
  · rfl

theorem statusOf_toText (status : ImportStatus) :
    statusOf status.toText = status := by
  cases status with
  | pending => rfl
  | converting => rfl
  | completed => rfl
  | failed => rfl
  | restored => rfl
  | legacy => rfl

theorem atoi_nat {number : Nat} (small : number < 2 ^ 31) :
    atoi (toString number).toList = number := by
  unfold atoi
  rw [strtoll_nat, Int.bmod_def]
  omega

/-- The decoder gives the record back but for its `date_source`. -/
theorem rowToRecord_givesBack_iff (accepted : db.Accepts mariadb record)
    (int64 : record.sequenceId < 2 ^ 63) (sequences : List SequenceRow) :
    (rowToRecord
        ((db.importRow record now).listed.columns sequences)).GivesBack
        record ↔
      record.dateSource = .exif := by
  obtain ⟨fit, -⟩ := accepted
  obtain ⟨natural, -, -, -, -, -, -, -, -, -, unsigned, byte⟩ := fit
  constructor
  · intro back
    exact back.dateSource.symm
  · intro exif
    constructor
    · change strtoll (toString record.sequenceId.toNat).toList = _
      rw [strtoll_nat]
      omega
    · exact pointedText_toList _
    · exact pointedText_toList _
    · exact pointedText_toList _
    · exact pointedText_toList _
    · exact pointedText_toList _
    · exact (pointedText_map _).trans (nullable_getD _)
    · exact (pointedText_map _).trans (nullable_getD _)
    · exact exif.symm
    · exact pointedText_toList _
    · exact pointedText_toList _
    · change statusOf (pointedText (some record.status.toText.toList)) = _
      rw [pointedText_toList, statusOf_toText]
    · change atoi (toString record.orientation.toNat).toList = _
      rw [atoi_nat (by omega)]
      exact Int.toNat_of_nonneg unsigned

/-- `GetImportById` finds the new row under the key that was returned. -/
theorem readImport_inserted (counted : db.Counted)
    (accepted : db.Accepts mariadb record)
    (small : db.nextImport < 2 ^ 63) :
    (db.insertImport mariadb record true now).1.readImport
        (db.insertImport mariadb record true now).2 true =
      some (rowToRecord
        ((db.importRow record now).listed.columns db.sequences)) := by
  have absent : db.imports.find? (fun row =>
      decide ((row.id : Int) = db.nextImport)) = none := by
    apply List.find?_eq_none.mpr
    intro row member same
    have below := counted.below row member
    have same := of_decide_eq_true same
    omega
  have here : decide (((db.importRow record now).id : Int) =
      db.nextImport) = true :=
    decide_eq_true rfl
  rw [insertImport_accepted accepted]
  unfold readImport getImportById
  simp only [if_true, toInt64_of_lt small, List.find?_append, absent,
    List.find?_singleton, here, Option.none_or, Option.map_some]

/-- A key that no `int64_t` holds is returned as a negative number. -/
theorem readImport_overflown (counted : db.Counted)
    (accepted : db.Accepts mariadb record)
    (large : ¬db.nextImport < 2 ^ 63) :
    (db.insertImport mariadb record true now).1.readImport
        (db.insertImport mariadb record true now).2 true = none := by
  have bounded := counted.bounded
  rw [insertImport_accepted accepted]
  unfold readImport getImportById
  rw [if_pos rfl, toInt64_of_ge (by omega) bounded, Option.map_eq_none_iff,
    List.find?_eq_none]
  intro row _ same
  have same := of_decide_eq_true same
  omega

/-- A successful insert leaves a row that holds the record, and reading it back
gives the record, exactly if its date comes from EXIF and its key is an
`int64_t`. -/
theorem insertImport_readBack_iff (counted : db.Counted)
    (int64 : record.sequenceId < 2 ^ 63)
    (success : (db.insertImport mariadb record executed now).2 ≠ 0) :
    (∃ row,
        (db.insertImport mariadb record executed now).1.imports =
          db.imports ++ [row] ∧
        row.Holds record ∧
        ∃ read,
          (db.insertImport mariadb record executed now).1.readImport
              (db.insertImport mariadb record executed now).2 true =
            some read ∧
          read.GivesBack record) ↔
      record.dateSource = .exif ∧ db.nextImport < 2 ^ 63 := by
  obtain ⟨rfl, accepted⟩ := accepted_of_success success
  constructor
  · intro stored
    obtain ⟨row, rows, holds, read, found, back⟩ := stored
    rw [insertImport_accepted accepted] at rows
    cases List.append_cancel_left rows
    refine ⟨(importRow_holds_iff accepted).mp holds, ?_⟩
    by_contra large
    rw [readImport_overflown counted accepted large] at found
    cases found
  · intro both
    obtain ⟨exif, small⟩ := both
    refine ⟨db.importRow record now, ?_,
      (importRow_holds_iff accepted).mpr exif, _,
      readImport_inserted counted accepted small,
      (rowToRecord_givesBack_iff accepted int64 _).mpr exif⟩
    rw [insertImport_accepted accepted]

end Db

end RawImport
