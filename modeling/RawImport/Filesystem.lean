import Mathlib.Logic.Function.Basic
import RawImport.Lib.PathText

/-!
# Files and `move_file`

The file system maps path text to regular files.  `moveFile` is
`util.cpp: move_file` at the granularity its callers see: one call that either
moves the file or reports failure, with the destination it may leave behind.
-/

namespace RawImport

abbrev Path := String

abbrev Bytes := List UInt8

/-- A regular file; `mtime` counts nanoseconds from the epoch. -/
structure File where
  bytes : Bytes
  mtime : Int
  deriving DecidableEq, Repr

namespace File

/-- `st_mtime`: whole seconds, rounded down. -/
def mtimeSeconds (file : File) : Int :=
  file.mtime / 1000000000

end File

abbrev Fs := Path → Option File

namespace Fs

def write (fs : Fs) (path : Path) (file : File) : Fs :=
  Function.update fs path (some file)

def remove (fs : Fs) (path : Path) : Fs :=
  Function.update fs path none

def bytesAt (fs : Fs) (path : Path) : Option Bytes :=
  (fs path).map File.bytes

@[simp] theorem write_same (fs : Fs) (path : Path) (file : File) :
    fs.write path file path = some file := by
  simp [write]

theorem write_other (fs : Fs) {path other : Path} (file : File)
    (different : other ≠ path) : fs.write path file other = fs other := by
  simp [write, different]

@[simp] theorem remove_same (fs : Fs) (path : Path) :
    fs.remove path path = none := by
  simp [remove]

theorem remove_other (fs : Fs) {path other : Path}
    (different : other ≠ path) : fs.remove path other = fs other := by
  simp [remove, different]

end Fs

/-- How one `move_file` call went: a rename, the copy fallback (which stamps
a new mtime), or a failure that may leave a partial destination. -/
inductive MoveOutcome where
  | renamed
  | copied (mtime : Int)
  | failed (left : Option File)
  deriving DecidableEq, Repr

namespace MoveOutcome

def Ok : MoveOutcome → Prop
  | .renamed => True
  | .copied _ => True
  | .failed _ => False

instance (outcome : MoveOutcome) : Decidable outcome.Ok := by
  cases outcome <;> unfold Ok <;> infer_instance

/-- The file a successful move puts at the destination. -/
def arriving (outcome : MoveOutcome) (file : File) : File :=
  match outcome with
  | .copied mtime => { file with mtime := mtime }
  | _ => file

@[simp] theorem arriving_bytes (outcome : MoveOutcome) (file : File) :
    (outcome.arriving file).bytes = file.bytes := by
  cases outcome <;> rfl

end MoveOutcome

/-- `move_file(from, to)`: the returned flag and the file system after it.
An outcome that needs a source file is impossible without one. -/
def moveFile (fs : Fs) (source target : Path) :
    MoveOutcome → Option (Fs × Bool)
  | .failed none => some (fs, false)
  | .failed (some left) =>
      (fs source).map fun _ => (fs.write target left, false)
  | outcome =>
      (fs source).map fun file =>
        ((fs.remove source).write target (outcome.arriving file), true)

section MoveFile

variable {fs next : Fs} {source target : Path} {outcome : MoveOutcome}
  {moved : Bool}

theorem moveFile_cases
    (call : moveFile fs source target outcome = some (next, moved)) :
    (outcome = .failed none ∧ next = fs ∧ moved = false) ∨
    (∃ left, outcome = .failed (some left) ∧
      next = fs.write target left ∧ moved = false) ∨
    (∃ file, outcome.Ok ∧ fs source = some file ∧
      next = (fs.remove source).write target (outcome.arriving file) ∧
      moved = true) := by
  cases outcome with
  | renamed =>
      obtain ⟨file, present, result⟩ := Option.map_eq_some_iff.mp call
      cases result
      exact .inr (.inr ⟨file, trivial, present, rfl, rfl⟩)
  | copied mtime =>
      obtain ⟨file, present, result⟩ := Option.map_eq_some_iff.mp call
      cases result
      exact .inr (.inr ⟨file, trivial, present, rfl, rfl⟩)
  | failed left =>
      cases left with
      | none =>
          cases call
          exact .inl ⟨rfl, rfl, rfl⟩
      | some left =>
          obtain ⟨file, present, result⟩ := Option.map_eq_some_iff.mp call
          cases result
          exact .inr (.inl ⟨left, rfl, rfl, rfl⟩)

theorem moveFile_ok (ok : outcome.Ok)
    (call : moveFile fs source target outcome = some (next, moved)) :
    ∃ file, fs source = some file ∧
      next = (fs.remove source).write target (outcome.arriving file) ∧
      moved = true := by
  rcases moveFile_cases call with ⟨rfl, -⟩ | ⟨left, rfl, -⟩ |
    ⟨file, -, present, after, flag⟩
  · exact ok.elim
  · exact ok.elim
  · exact ⟨file, present, after, flag⟩

theorem moveFile_source (ok : outcome.Ok) (away : target ≠ source)
    (call : moveFile fs source target outcome = some (next, moved)) :
    next source = none := by
  obtain ⟨file, -, rfl, -⟩ := moveFile_ok ok call
  rw [Fs.write_other _ _ (Ne.symm away), Fs.remove_same]

theorem moveFile_other {path : Path} (notSource : path ≠ source)
    (notTarget : path ≠ target)
    (call : moveFile fs source target outcome = some (next, moved)) :
    next path = fs path := by
  rcases moveFile_cases call with ⟨-, rfl, -⟩ | ⟨left, -, rfl, -⟩ |
    ⟨file, -, -, rfl, -⟩
  · rfl
  · exact fs.write_other left notTarget
  · rw [Fs.write_other _ _ notTarget, Fs.remove_other _ notSource]

end MoveFile

end RawImport
