import RawImport.Worker.ProcessFile

/-!
# Names of converted files

`output_dir/<folder>/IMG_<id>.dng` is told apart from every other file the
worker writes or takes by its extension, and from other conversions by its
number.
-/

namespace RawImport

open PathText

namespace Db

theorem bare_sequenceName (id : Int) : Bare (sequenceName id) :=
  bare_append (by decide) (bare_toString id)

end Db

namespace Worker

namespace ProcessFile

theorem filename_outputPath (cfg : Config) (folder : String) (id : Int) :
    filename (outputPath cfg folder (Db.sequenceName id)) =
      Db.sequenceName id ++ ".dng" :=
  filename_separated _ (bare_append (Db.bare_sequenceName id) (by decide))

theorem outputPath_number {cfg : Config} {folder folder' : String}
    {id id' : Int}
    (equal : filename (outputPath cfg folder (Db.sequenceName id)) =
      filename (outputPath cfg folder' (Db.sequenceName id'))) :
    id = id' := by
  rw [filename_outputPath, filename_outputPath] at equal
  exact number_of_numbered equal

theorem extension_filename (path : Path) :
    extension (filename path) = extension path := by
  unfold extension
  rw [filename_of_bare (bare_filename path)]

theorem extension_outputPath (cfg : Config) (folder : String) (id : Int) :
    extension (outputPath cfg folder (Db.sequenceName id)) = ".dng" := by
  rw [← extension_filename, filename_outputPath]
  have nonempty : Db.sequenceName id ≠ "" := by
    intro empty
    have letters := congrArg String.toList empty
    simp [Db.sequenceName, String.toList_append] at letters
  have text : Db.sequenceName id ++ ".dng" =
      Db.sequenceName id ++ "." ++ "dng" := by
    rw [String.append_assoc]
    rfl
  rw [text, extension_append (Db.bare_sequenceName id) (by decide) nonempty
    (by decide) (by decide)]
  rfl

theorem extension_thumbnailPath (cfg : Config) (folder : String)
    {seqName : String} (bare : Bare seqName) :
    extension (thumbnailPath cfg folder seqName) = ".jpg" := by
  have text : seqName ++ ".thumb.jpg" = seqName ++ ".thumb" ++ "." ++ "jpg" := by
    rw [String.append_assoc, String.append_assoc]
    rfl
  have bareName : Bare (seqName ++ ".thumb.jpg") :=
    bare_append bare (by decide)
  have nonempty : seqName ++ ".thumb" ≠ "" := by
    intro empty
    have letters := congrArg String.toList empty
    simp [String.toList_append] at letters
  rw [← extension_filename, thumbnailPath, filename_separated _ bareName,
    text, extension_append (bare_append bare (by decide)) (by decide)
      nonempty (by decide) (by decide)]
  rfl

theorem extension_deadPath (cfg : Config) (path : Path) (newRetry : Int) :
    extension (deadPath cfg path newRetry) = "." ++ toString newRetry := by
  have bareStem : Bare (filename path ++ ".failcount") :=
    bare_append (bare_filename path) (by decide)
  have text : filename path ++ ".failcount." ++ toString newRetry =
      filename path ++ ".failcount" ++ "." ++ toString newRetry := by
    simp only [String.append_assoc]
    rfl
  have bareName :
      Bare (filename path ++ ".failcount." ++ toString newRetry) :=
    bare_append (bare_append (bare_filename path) (by decide))
      (bare_toString newRetry)
  have nonempty : filename path ++ ".failcount" ≠ "" := by
    intro empty
    have letters := congrArg String.toList empty
    simp [String.toList_append] at letters
  have undotted : '.' ∉ (toString newRetry).toList := by
    intro dot
    rcases Numeral.mem_toString dot with digit | sign
    · simp at digit
    · simp at sign
  rw [← extension_filename, deadPath, filename_separated _ bareName, text,
    extension_append bareStem (bare_toString newRetry) nonempty
      (Numeral.toString_ne_empty newRetry) undotted]

theorem extension_of_accepted {path : Path}
    (accepted : acceptedName (filename path) = true) :
    extension path ≠ ".dng" := by
  intro converted
  rw [acceptedName, extension_filename, converted] at accepted
  simp only [Bool.and_eq_true] at accepted
  have raw := accepted.1.1.1
  revert raw
  decide

section Targets

variable (cfg : Config) (folder folder' : String) (id : Int)

theorem ne_outputPath {path : Path} (other : extension path ≠ ".dng") :
    path ≠ outputPath cfg folder (Db.sequenceName id) := by
  rintro rfl
  exact other (extension_outputPath cfg folder id)

theorem thumbnailPath_ne_outputPath {seqName : String}
    (bare : Bare seqName) :
    thumbnailPath cfg folder' seqName ≠
      outputPath cfg folder (Db.sequenceName id) := by
  apply ne_outputPath
  rw [extension_thumbnailPath cfg folder' bare]
  decide

theorem deadPath_ne_outputPath (path : Path) (newRetry : Int) :
    deadPath cfg path newRetry ≠
      outputPath cfg folder (Db.sequenceName id) := by
  apply ne_outputPath
  rw [extension_deadPath]
  intro equal
  have letters := congrArg String.toList equal
  have digits : (toString newRetry).toList = "dng".toList := by
    simpa [String.toList_append] using letters
  have letter : 'd' ∈ (toString newRetry).toList := by
    rw [digits]
    decide
  rcases Numeral.mem_toString letter with digit | sign
  · simp at digit
  · simp at sign

theorem moved_ne_outputPath {path : Path} (directory : String)
    (accepted : acceptedName (filename path) = true) :
    directory ++ "/" ++ filename path ≠
      outputPath cfg folder (Db.sequenceName id) := by
  apply ne_outputPath
  rw [← extension_filename, filename_separated _ (bare_filename path)]
  have bare := bare_filename path
  apply extension_of_accepted
  rw [filename_of_bare bare]
  exact accepted

end Targets

end ProcessFile

end Worker

end RawImport
