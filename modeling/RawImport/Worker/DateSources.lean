import RawImport.Store.StoredRecords
import RawImport.Worker.Pass

/-!
# Where a capture date comes from

`date_source` is a column of `imports` and a field of the record, and an insert
does not bind it.  The row takes the default of the column, whatever the record
or the EXIF stage of a pass says.
-/

namespace RawImport

namespace Worker

open ProcessFile Transition

variable {platform : Platform} {cfg : Config} {path : Path}

theorem dateSource_of_insert {start before after : Shared}
    {moves : List Move} {written : ImportRecord} {executed : Bool}
    {now : String} {stage : Stage} {row : ImportRow}
    (reached : run (advance platform cfg path) (start, .fingerprint) moves =
      some (before, .insert written))
    (taken : next platform cfg path before (.insert written)
      (.insert executed now) = some (after, stage))
    (rows : after.db.imports = before.db.imports ++ [row]) :
    ∃ ex, exifResults moves = [ex] ∧
      (row.dateSource = ex.source ↔ ex.source = .exif) := by
  obtain ⟨job, outHash, -, results⟩ := dated_of_run reached
  refine ⟨job.ex, results, ?_⟩
  have stored : row.dateSource = .exif := by
    have inserted : after.db =
        (before.db.insertImport platform.mariadb written executed now).1 := by
      cases step_of_next taken with
      | insert => rfl
    rw [inserted] at rows
    rcases Db.insertImport_cases platform.mariadb before.db written executed
      now with ⟨-, -, accepted⟩ | ⟨-, refused⟩
    · rw [accepted] at rows
      cases List.append_cancel_left rows
      rfl
    · rw [refused] at rows
      have lengths := congrArg List.length rows
      simp at lengths
  rw [stored]
  exact eq_comm

/-- A successful insert leaves a row that holds the record and gives it back
exactly if the date source is EXIF and the key an `int64_t`, and the row of a
pass has the source of its EXIF result exactly if that is EXIF.  Dates and
times are taken in the server's spelling and `CHAR` values without blanks at
their end, which the server would cut. -/
theorem insertImport_stores_iff {mariadb : Mariadb} {db : Db}
    {record : ImportRecord} {executed : Bool} {now : String}
    (counted : db.Counted) (int64 : record.sequenceId < 2 ^ 63)
    (success : (db.insertImport mariadb record executed now).2 ≠ 0) :
    ((∃ row,
        (db.insertImport mariadb record executed now).1.imports =
          db.imports ++ [row] ∧
        row.Holds record ∧
        ∃ read,
          (db.insertImport mariadb record executed now).1.readImport
              (db.insertImport mariadb record executed now).2 true =
            some read ∧
          read.GivesBack record) ↔
      record.dateSource = .exif ∧ db.nextImport < 2 ^ 63) ∧
    ∀ (platform : Platform) (cfg : Config) (path : Path)
        (start before after : Shared) (moves : List Move)
        (written : ImportRecord) (executed : Bool) (now : String)
        (stage : Stage) (row : ImportRow),
      run (advance platform cfg path) (start, .fingerprint) moves =
        some (before, .insert written) →
      next platform cfg path before (.insert written)
        (.insert executed now) = some (after, stage) →
      after.db.imports = before.db.imports ++ [row] →
        ∃ ex, exifResults moves = [ex] ∧
          (row.dateSource = ex.source ↔ ex.source = .exif) := by
  constructor
  · exact Db.insertImport_readBack_iff counted int64 success
  · intro platform cfg path start before after moves written executed now
      stage row reached taken rows
    exact dateSource_of_insert reached taken rows

def numbered : Db where
  sequences := [⟨1, "IMG_1"⟩]
  nextSequence := 2

theorem numbered_counted : numbered.Counted where
  below := by
    intro row member
    cases member
  bounded := by decide

/-- A record whose date is the modification time of its file. -/
def datedByMtime : ImportRecord where
  sequenceId := 1
  sourcePath := "/watch/DSC_1.NEF"
  outputPath := "/output/2026/07/IMG_1.dng"
  captureDate := "2026-07-01"
  captureTime := "12:00:00"
  folderSchema := "2026/07"
  conversionSettings := "\x7b\x7d"
  status := .completed
  dateSource := .mtime

/-- With a date from EXIF the row holds the record and gives it back. -/
theorem insertImport_stores_dated :
    ∃ row,
      (numbered.insertImport .binary { datedByMtime with dateSource := .exif }
          true "2026-07-02 08:00:00").1.imports = [row] ∧
      row.Holds { datedByMtime with dateSource := .exif } := by
  have success : (numbered.insertImport .binary
      { datedByMtime with dateSource := .exif } true
      "2026-07-02 08:00:00").2 ≠ 0 := by
    decide +kernel
  obtain ⟨row, rows, holds, -⟩ := (insertImport_stores_iff
    numbered_counted (by decide) success).1.mpr ⟨rfl, by decide⟩
  exact ⟨row, rows, holds⟩

/-- The row says that the modification time is from EXIF. -/
theorem insertImport_drops_source :
    (numbered.insertImport .binary datedByMtime true
        "2026-07-02 08:00:00").2 = 1 ∧
      ∀ row ∈ (numbered.insertImport .binary datedByMtime true
        "2026-07-02 08:00:00").1.imports,
        row.dateSource ≠ datedByMtime.dateSource := by
  decide +kernel

end Worker

end RawImport
