import RawImport.Engine.Commands
import RawImport.Library.Operations

/-!
# Commands of the rotation manager

`Dispatch` and the drain in `Stop` call `exiftool` as `SetOrientation` does,
but put the path of the DNG to the command without quotes.
-/

namespace RawImport

namespace Rotation

open Cxx (cStr cStr_eq_self_iff)
open Engine ShellWords

/-- `cfg.exiftool_bin.empty() ? "exiftool" : cfg.exiftool_bin`. -/
def exiftoolBin (configured : Text) : Text :=
  if configured = [] then "exiftool".toList else configured

/-- The command of `Dispatch`. -/
def dispatchCommand (configured : Text) (rot : PendingRot) : Text :=
  exiftoolBin configured ++ " -Orientation=".toList ++
    (toString rot.orientation).toList ++
    " -n -overwrite_original_in_place ".toList ++ rot.dngPath.toList

/-- The command of the drain in `Stop`. -/
def stopCommand (configured : Text) (rot : PendingRot) : Text :=
  exiftoolBin configured ++ " -Orientation=".toList ++
    (toString rot.orientation).toList ++
    " -n -overwrite_original_in_place ".toList ++ rot.dngPath.toList

/-- One call of `exiftool` for one file. -/
def rotationWords (exiftool : Text) (rot : PendingRot) : List Text :=
  [exiftool, "-Orientation=".toList ++ (toString rot.orientation).toList,
    "-n".toList, "-overwrite_original_in_place".toList, rot.dngPath.toList]

section Words

variable {configured : Text} {rot : PendingRot}

theorem exiftoolBin_of_named (named : CommandName configured) :
    exiftoolBin configured = configured :=
  if_neg named.bareword.nonempty

theorem denotes_options (rot : PendingRot) :
    List.Forall₂ Denotes
      ["-Orientation=".toList ++ (toString rot.orientation).toList,
        "-n".toList, "-overwrite_original_in_place".toList]
      ["-Orientation=".toList ++ (toString rot.orientation).toList,
        "-n".toList, "-overwrite_original_in_place".toList] := by
  have orientation : Bareword
      ("-Orientation=".toList ++ (toString rot.orientation).toList) :=
    bareword_numeral (by decide) rot.orientation
  have numeric : Bareword "-n".toList := by decide
  have inPlace : Bareword "-overwrite_original_in_place".toList := by
    decide
  exact .cons orientation.denotes (.cons numeric.denotes
    (.cons inPlace.denotes .nil))

theorem clean_orientation (rot : PendingRot) :
    '\x00' ∉ "-Orientation=".toList ++ (toString rot.orientation).toList := by
  intro member
  rcases List.mem_append.mp member with front | number
  · exact absurd front (by decide)
  · rcases Numeral.mem_toString number with digit | sign
    · exact absurd digit (by decide)
    · exact absurd sign (by decide)

theorem dispatchCommand_eq (named : CommandName configured) :
    dispatchCommand configured rot =
      (commandLine configured
        ["-Orientation=".toList ++ (toString rot.orientation).toList,
          "-n".toList, "-overwrite_original_in_place".toList] ++ [' ']) ++
        rot.dngPath.toList := by
  simp [dispatchCommand, exiftoolBin_of_named named, commandLine]

/-- The shell runs what `SetOrientation` runs, when the path needs no
quotes. -/
theorem dispatchCommand_iff (named : CommandName configured)
    (binClean : '\x00' ∉ configured)
    (pathClean : '\x00' ∉ rot.dngPath.toList) :
    simpleCommand (cStr (dispatchCommand configured rot)) =
        some (rotationWords configured rot) ↔
      Bareword rot.dngPath.toList := by
  have clean : '\x00' ∉ dispatchCommand configured rot := by
    rw [dispatchCommand_eq named]
    intro member
    rcases List.mem_append.mp member with front | path
    · rcases List.mem_append.mp front with options | blank
      · refine clean_commandLine binClean ?_ options
        have orientation := clean_orientation rot
        simp only [List.forall_mem_cons]
        exact ⟨orientation, by decide, by decide, by simp⟩
      · exact absurd blank (by decide)
    · exact pathClean path
  rw [cStr_eq_self_iff.mpr clean, dispatchCommand_eq named]
  exact simpleCommand_append_iff
    (reads_commandLine named (denotes_options rot)) (named.isCommand _)

theorem setOrientationCommand_words (named : CommandName configured)
    (binClean : '\x00' ∉ configured)
    (pathClean : '\x00' ∉ rot.dngPath.toList) :
    simpleCommand (cStr (setOrientationCommand configured
      rot.dngPath.toList rot.orientation)) =
        some (rotationWords configured rot) := by
  rw [setOrientationCommand_eq, cStr_eq_self_iff.mpr]
  · apply simpleCommand_commandLine named
    have quoted : List.Forall₂ Denotes [shellQuote rot.dngPath.toList]
        [rot.dngPath.toList] := .cons (denotes_shellQuote _) .nil
    exact List.rel_append (denotes_options rot) quoted
  · apply clean_commandLine binClean
    have quoted := clean_shellQuote pathClean
    have orientation := clean_orientation rot
    simp only [List.forall_mem_cons]
    exact ⟨orientation, by decide, by decide, quoted, by simp⟩

end Words

/-- `SetOrientation` names every path to `exiftool`.  `Dispatch` and the drain
run the same words exactly when the path is not empty, has no character that
the shell looks at, and begins with neither a tilde nor a hash. -/
theorem rotation_words_iff {configured : Text} {rot : PendingRot}
    (named : CommandName configured) (binClean : '\x00' ∉ configured)
    (pathClean : '\x00' ∉ rot.dngPath.toList) :
    simpleCommand (cStr (setOrientationCommand configured
        rot.dngPath.toList rot.orientation)) =
      some (rotationWords configured rot) ∧
    (simpleCommand (cStr (dispatchCommand configured rot)) =
        some (rotationWords configured rot) ↔
      Bareword rot.dngPath.toList) ∧
    (simpleCommand (cStr (stopCommand configured rot)) =
        some (rotationWords configured rot) ↔
      Bareword rot.dngPath.toList) := by
  refine ⟨setOrientationCommand_words named binClean pathClean,
    dispatchCommand_iff named binClean pathClean, ?_⟩
  have same : stopCommand configured rot = dispatchCommand configured rot :=
    rfl
  rw [same]
  exact dispatchCommand_iff named binClean pathClean

theorem rotation_words_iff_bare :
    simpleCommand (cStr (dispatchCommand "exiftool".toList
        ⟨6, "/output/2024/DSC_1.dng", "ui"⟩)) =
      some (rotationWords "exiftool".toList
        ⟨6, "/output/2024/DSC_1.dng", "ui"⟩) := by
  have named : CommandName "exiftool".toList :=
    ⟨by decide, by decide, by decide⟩
  exact (rotation_words_iff named (by decide) (by decide)).2.1.mpr
    (by decide)

/-- A directory with a blank is two words. -/
theorem rotation_words_split :
    simpleCommand (cStr (setOrientationCommand "exiftool".toList
        "/output/my dng/a.dng".toList 6)) =
      some (rotationWords "exiftool".toList
        ⟨6, "/output/my dng/a.dng", "ui"⟩) ∧
    simpleCommand (cStr (dispatchCommand "exiftool".toList
        ⟨6, "/output/my dng/a.dng", "ui"⟩)) =
      some ["exiftool".toList, "-Orientation=6".toList, "-n".toList,
        "-overwrite_original_in_place".toList, "/output/my".toList,
        "dng/a.dng".toList] ∧
    simpleCommand (cStr (stopCommand "exiftool".toList
        ⟨6, "/output/my dng/a.dng", "ui"⟩)) ≠
      some (rotationWords "exiftool".toList
        ⟨6, "/output/my dng/a.dng", "ui"⟩) := by
  decide +kernel

end Rotation

end RawImport
