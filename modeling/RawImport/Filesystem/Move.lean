import RawImport.Filesystem
import RawImport.Lib.History

/-!
# The calls of `move_file`

`move_file` call by call: the rename, the copy loop with its own progress
count, the library copy behind it, and the removal of the source.  Beside the
files stands what a crash would leave of the copy: whether its bytes and its
directory entry have reached the disk.  Every run is one `moveFile`.
-/

namespace RawImport

namespace Move

open Transition

/-- The call that is next. -/
inductive Stage where
  | renaming
  | openingSource
  | stating
  | openingTarget (size : Nat)
  | copying (size offset copied : Nat)
  | syncing
  | openingDir
  | syncingDir
  | copyingFile
  | reopening
  | resyncing
  | removing
  | returned (result : Bool)
  deriving DecidableEq, Repr

/-- `settled`: the bytes of the target have reached the disk; `linked`: its
directory entry has. -/
structure State where
  fs : Fs
  settled : Bool
  linked : Bool
  stage : Stage

/-- A call with its outcome; a write stamps the time. -/
inductive Call where
  | rename (done : Bool)
  | openSource (opened : Bool)
  | fstat (done : Bool)
  | openTarget (opened : Bool) (now : Int)
  | copyFileRange (n : Int) (now : Int)
  | fsync (done : Bool)
  | openDir (opened : Bool)
  | fsyncDir (done : Bool)
  | copyFile (done : Bool) (now : Int) (left : File)
  | openCopy (opened : Bool)
  | fsyncCopy (done : Bool)
  | remove (done : Bool)
  deriving DecidableEq, Repr

def copyEnded (size copied : Nat) : Stage :=
  if copied = size then .syncing else .copyingFile

/-- `while (offset < src_stat.st_size)`. -/
def copyLoop (size offset copied : Nat) : Stage :=
  if offset < size then .copying size offset copied
  else copyEnded size copied

/-- What `copy_file_range` puts behind the bytes of the target. -/
def appended (fs : Fs) (source target : Path) (offset n : Nat) (now : Int) :
    Option Fs :=
  match fs source, fs target with
  | some file, some copy =>
      some (fs.write target
        ⟨copy.bytes ++ (file.bytes.drop offset).take n, now⟩)
  | _, _ => none

/-- `move_file(from, to)`, call by call. -/
def step (source target : Path) (state : State) : Call → Option State
  | .rename done =>
      if state.stage = .renaming then
        if done then
          (state.fs source).map fun file => { state with
            fs := (state.fs.remove source).write target file
            stage := .returned true }
        else some { state with stage := .openingSource }
      else none
  | .openSource opened =>
      if state.stage = .openingSource then
        some { state with
          stage := if opened then .stating else .returned false }
      else none
  | .fstat done =>
      if state.stage = .stating then
        (state.fs source).map fun file => { state with
          stage :=
            if done then .openingTarget file.bytes.length
            else .returned false }
      else none
  | .openTarget opened now =>
      match state.stage with
      | .openingTarget size =>
          if opened then
            some {
              fs := state.fs.write target ⟨[], now⟩
              settled := false
              linked := state.linked
              stage := copyLoop size 0 0 }
          else some { state with stage := .returned false }
      | _ => none
  | .copyFileRange n now =>
      match state.stage with
      | .copying size offset copied =>
          if 0 < n then
            if offset + n.toNat ≤ size then
              (appended state.fs source target offset n.toNat now).map
                fun fs => {
                  fs := fs
                  settled := false
                  linked := state.linked
                  stage :=
                    copyLoop size (offset + n.toNat) (copied + n.toNat) }
            else none
          else some { state with stage := copyEnded size copied }
      | _ => none
  | .fsync done =>
      -- the result is not looked at
      if state.stage = .syncing then
        some { state with
          settled := state.settled || done
          stage := .openingDir }
      else none
  | .openDir opened =>
      if state.stage = .openingDir then
        some { state with
          stage := if opened then .syncingDir else .removing }
      else none
  | .fsyncDir done =>
      if state.stage = .syncingDir then
        some { state with
          linked := state.linked || done
          stage := .removing }
      else none
  | .copyFile done now left =>
      if state.stage = .copyingFile then
        if done then
          (state.fs source).map fun file => {
            fs := state.fs.write target ⟨file.bytes, now⟩
            settled := false
            linked := state.linked
            stage := .reopening }
        else
          some {
            fs := state.fs.write target left
            settled := false
            linked := state.linked
            stage := .returned false }
      else none
  | .openCopy opened =>
      if state.stage = .reopening then
        some { state with
          stage := if opened then .resyncing else .removing }
      else none
  | .fsyncCopy done =>
      if state.stage = .resyncing then
        some { state with
          settled := state.settled || done
          stage := .removing }
      else none
  | .remove done =>
      if state.stage = .removing then
        if done then
          some { state with
            fs := state.fs.remove source
            stage := .returned true }
        else some { state with stage := .returned false }
      else none

/-- What a step does, with one case for each way it can go. -/
inductive Moves (source target : Path) : State → Call → State → Prop where
  | renamed {files : Fs} {settled linked : Bool} {file : File}
      (present : files source = some file) :
      Moves source target ⟨files, settled, linked, .renaming⟩ (.rename true)
        ⟨(files.remove source).write target file, settled, linked,
          .returned true⟩
  | renameFailed {files : Fs} {settled linked : Bool} :
      Moves source target ⟨files, settled, linked, .renaming⟩ (.rename false)
        ⟨files, settled, linked, .openingSource⟩
  | openedSource {files : Fs} {settled linked : Bool} :
      Moves source target ⟨files, settled, linked, .openingSource⟩
        (.openSource true) ⟨files, settled, linked, .stating⟩
  | sourceFailed {files : Fs} {settled linked : Bool} :
      Moves source target ⟨files, settled, linked, .openingSource⟩
        (.openSource false) ⟨files, settled, linked, .returned false⟩
  | stated {files : Fs} {settled linked : Bool} {file : File}
      (present : files source = some file) :
      Moves source target ⟨files, settled, linked, .stating⟩ (.fstat true)
        ⟨files, settled, linked, .openingTarget file.bytes.length⟩
  | statFailed {files : Fs} {settled linked : Bool} :
      Moves source target ⟨files, settled, linked, .stating⟩ (.fstat false)
        ⟨files, settled, linked, .returned false⟩
  | openedTarget {files : Fs} {settled linked : Bool} {size : Nat}
      {now : Int} :
      Moves source target ⟨files, settled, linked, .openingTarget size⟩
        (.openTarget true now)
        ⟨files.write target ⟨[], now⟩, false, linked, copyLoop size 0 0⟩
  | targetFailed {files : Fs} {settled linked : Bool} {size : Nat}
      {now : Int} :
      Moves source target ⟨files, settled, linked, .openingTarget size⟩
        (.openTarget false now) ⟨files, settled, linked, .returned false⟩
  | copied {files after : Fs} {settled linked : Bool}
      {size offset count : Nat} {n now : Int} (positive : 0 < n)
      (fits : offset + n.toNat ≤ size)
      (result : appended files source target offset n.toNat now =
        some after) :
      Moves source target ⟨files, settled, linked, .copying size offset count⟩
        (.copyFileRange n now)
        ⟨after, false, linked,
          copyLoop size (offset + n.toNat) (count + n.toNat)⟩
  | copyStopped {files : Fs} {settled linked : Bool}
      {size offset count : Nat} {n now : Int} (nothing : ¬0 < n) :
      Moves source target ⟨files, settled, linked, .copying size offset count⟩
        (.copyFileRange n now) ⟨files, settled, linked, copyEnded size count⟩
  | synced {files : Fs} {settled linked done : Bool} :
      Moves source target ⟨files, settled, linked, .syncing⟩ (.fsync done)
        ⟨files, settled || done, linked, .openingDir⟩
  | openedDir {files : Fs} {settled linked : Bool} :
      Moves source target ⟨files, settled, linked, .openingDir⟩
        (.openDir true) ⟨files, settled, linked, .syncingDir⟩
  | dirFailed {files : Fs} {settled linked : Bool} :
      Moves source target ⟨files, settled, linked, .openingDir⟩
        (.openDir false) ⟨files, settled, linked, .removing⟩
  | syncedDir {files : Fs} {settled linked done : Bool} :
      Moves source target ⟨files, settled, linked, .syncingDir⟩
        (.fsyncDir done) ⟨files, settled, linked || done, .removing⟩
  | copiedFile {files : Fs} {settled linked : Bool} {file left : File}
      {now : Int} (present : files source = some file) :
      Moves source target ⟨files, settled, linked, .copyingFile⟩
        (.copyFile true now left)
        ⟨files.write target ⟨file.bytes, now⟩, false, linked, .reopening⟩
  | fileFailed {files : Fs} {settled linked : Bool} {left : File}
      {now : Int} :
      Moves source target ⟨files, settled, linked, .copyingFile⟩
        (.copyFile false now left)
        ⟨files.write target left, false, linked, .returned false⟩
  | openedCopy {files : Fs} {settled linked : Bool} :
      Moves source target ⟨files, settled, linked, .reopening⟩
        (.openCopy true) ⟨files, settled, linked, .resyncing⟩
  | copyFailed {files : Fs} {settled linked : Bool} :
      Moves source target ⟨files, settled, linked, .reopening⟩
        (.openCopy false) ⟨files, settled, linked, .removing⟩
  | resynced {files : Fs} {settled linked done : Bool} :
      Moves source target ⟨files, settled, linked, .resyncing⟩
        (.fsyncCopy done) ⟨files, settled || done, linked, .removing⟩
  | removed {files : Fs} {settled linked : Bool} :
      Moves source target ⟨files, settled, linked, .removing⟩ (.remove true)
        ⟨files.remove source, settled, linked, .returned true⟩
  | removeFailed {files : Fs} {settled linked : Bool} :
      Moves source target ⟨files, settled, linked, .removing⟩ (.remove false)
        ⟨files, settled, linked, .returned false⟩

/-- Before a call of the function, or behind the rename of one. -/
def before (fs : Fs) (target : Path) (stage : Stage) : State where
  fs := fs
  settled := true
  linked := (fs target).isSome
  stage := stage

/-! ## How far a run is -/

/-- What the files are at a stage, beside what they were. -/
def Progress (fs : Fs) (source target : Path) (file : File)
    (state : State) : Prop :=
  match state.stage with
  | .renaming => state.fs = fs
  | .openingSource => state.fs = fs
  | .stating => state.fs = fs
  | .openingTarget size => state.fs = fs ∧ size = file.bytes.length
  | .copying size offset copied =>
      copied = offset ∧ offset < size ∧ size = file.bytes.length ∧
        ∃ mtime, state.fs =
          fs.write target ⟨file.bytes.take offset, mtime⟩
  | .copyingFile => ∃ left, state.fs = fs.write target left
  | .returned true =>
      ∃ outcome : MoveOutcome, outcome.Ok ∧
        state.fs = (fs.remove source).write target (outcome.arriving file)
  | .returned false =>
      state.fs = fs ∨ ∃ left, state.fs = fs.write target left
  | _ => ∃ mtime, state.fs = fs.write target ⟨file.bytes, mtime⟩

section Steps

variable {fs : Fs} {source target : Path} {file : File}
  {state next : State}

theorem write_write (fs : Fs) (path : Path) (first second : File) :
    (fs.write path first).write path second = fs.write path second := by
  unfold Fs.write
  exact Function.update_idem _ _ _

theorem progress_copyLoop {offset : Nat} (mtime : Int)
    (bound : offset ≤ file.bytes.length)
    (stage : state.stage = copyLoop file.bytes.length offset offset)
    (copied : state.fs =
      fs.write target ⟨file.bytes.take offset, mtime⟩) :
    Progress fs source target file state := by
  by_cases more : offset < file.bytes.length
  · rw [copyLoop, if_pos more] at stage
    rw [Progress, stage]
    exact ⟨rfl, more, rfl, mtime, copied⟩
  · have whole : offset = file.bytes.length := by omega
    rw [copyLoop, if_neg more, copyEnded, if_pos whole] at stage
    rw [Progress, stage]
    refine ⟨mtime, ?_⟩
    rw [copied, whole, List.take_length]

theorem appended_eq {offset n : Nat} {mtime now : Int} {after : Fs}
    (different : source ≠ target) (present : fs source = some file)
    (result : appended (fs.write target ⟨file.bytes.take offset, mtime⟩)
      source target offset n now = some after) :
    after = fs.write target ⟨file.bytes.take (offset + n), now⟩ := by
  unfold appended at result
  rw [Fs.write_other fs _ different, present, Fs.write_same] at result
  rw [← Option.some.inj result, write_write, ← List.take_add]

theorem present_of_write (different : source ≠ target)
    (present : fs source = some file) (left : File) :
    fs.write target left source = some file := by
  rw [Fs.write_other fs left different]
  exact present

theorem moves_of_step {call : Call}
    (taken : step source target state call = some next) :
    Moves source target state call next := by
  obtain ⟨files, settled, linked, stage⟩ := state
  cases call with
  | rename done =>
      obtain ⟨here, result⟩ := Option.ite_none_right_eq_some.mp taken
      cases here
      cases done with
      | true =>
          obtain ⟨file, present, rfl⟩ := Option.map_eq_some_iff.mp result
          exact .renamed present
      | false =>
          cases result
          exact .renameFailed
  | openSource opened =>
      obtain ⟨here, result⟩ := Option.ite_none_right_eq_some.mp taken
      cases here
      cases opened with
      | true =>
          cases result
          exact .openedSource
      | false =>
          cases result
          exact .sourceFailed
  | fstat done =>
      obtain ⟨here, result⟩ := Option.ite_none_right_eq_some.mp taken
      cases here
      obtain ⟨file, present, rfl⟩ := Option.map_eq_some_iff.mp result
      cases done with
      | true => exact .stated present
      | false => exact .statFailed
  | openTarget opened now =>
      simp only [step] at taken
      split at taken
      · cases opened with
        | true =>
            cases taken
            exact .openedTarget
        | false =>
            cases taken
            exact .targetFailed
      · cases taken
  | copyFileRange n now =>
      simp only [step] at taken
      split at taken
      · split at taken
        · rename_i positive
          obtain ⟨fits, result⟩ := Option.ite_none_right_eq_some.mp taken
          obtain ⟨after, copied, rfl⟩ := Option.map_eq_some_iff.mp result
          exact .copied positive fits copied
        · rename_i nothing
          cases taken
          exact .copyStopped nothing
      · cases taken
  | fsync done =>
      obtain ⟨here, result⟩ := Option.ite_none_right_eq_some.mp taken
      cases here
      cases result
      exact .synced
  | openDir opened =>
      obtain ⟨here, result⟩ := Option.ite_none_right_eq_some.mp taken
      cases here
      cases opened with
      | true =>
          cases result
          exact .openedDir
      | false =>
          cases result
          exact .dirFailed
  | fsyncDir done =>
      obtain ⟨here, result⟩ := Option.ite_none_right_eq_some.mp taken
      cases here
      cases result
      exact .syncedDir
  | copyFile done now left =>
      obtain ⟨here, result⟩ := Option.ite_none_right_eq_some.mp taken
      cases here
      cases done with
      | true =>
          obtain ⟨file, present, rfl⟩ := Option.map_eq_some_iff.mp result
          exact .copiedFile present
      | false =>
          cases result
          exact .fileFailed
  | openCopy opened =>
      obtain ⟨here, result⟩ := Option.ite_none_right_eq_some.mp taken
      cases here
      cases opened with
      | true =>
          cases result
          exact .openedCopy
      | false =>
          cases result
          exact .copyFailed
  | fsyncCopy done =>
      obtain ⟨here, result⟩ := Option.ite_none_right_eq_some.mp taken
      cases here
      cases result
      exact .resynced
  | remove done =>
      obtain ⟨here, result⟩ := Option.ite_none_right_eq_some.mp taken
      cases here
      cases done with
      | true =>
          cases result
          exact .removed
      | false =>
          cases result
          exact .removeFailed

theorem progress_step {call : Call} (different : source ≠ target)
    (present : fs source = some file)
    (progress : Progress fs source target file state)
    (taken : step source target state call = some next) :
    Progress fs source target file next := by
  cases moves_of_step taken with
  | @renamed files settled linked held there =>
      have same : files = fs := progress
      rw [same, present] at there
      cases there
      rw [same]
      exact ⟨.renamed, trivial, rfl⟩
  | renameFailed => exact progress
  | openedSource => exact progress
  | sourceFailed => exact .inl progress
  | @stated files settled linked held there =>
      have same : files = fs := progress
      rw [same, present] at there
      cases there
      exact ⟨same, rfl⟩
  | statFailed => exact .inl progress
  | @openedTarget files settled linked size now =>
      obtain ⟨same, length⟩ := progress
      dsimp only at same
      rw [length]
      refine progress_copyLoop now (Nat.zero_le _) rfl ?_
      rw [same, List.take_zero]
  | targetFailed => exact .inl progress.1
  | copied positive fits result =>
      obtain ⟨rfl, more, rfl, mtime, part⟩ := progress
      dsimp only at part
      rw [part] at result
      exact progress_copyLoop _ fits rfl
        (appended_eq different present result)
  | copyStopped nothing =>
      obtain ⟨rfl, more, rfl, mtime, part⟩ := progress
      have short : ¬_ = file.bytes.length := Nat.ne_of_lt more
      rw [copyEnded, if_neg short]
      exact ⟨_, part⟩
  | synced => exact progress
  | openedDir => exact progress
  | dirFailed => exact progress
  | syncedDir => exact progress
  | copiedFile there =>
      obtain ⟨held, part⟩ := progress
      dsimp only at part
      rw [part, present_of_write different present] at there
      cases there
      rw [part]
      exact ⟨_, write_write fs target held _⟩
  | @fileFailed files settled linked left now =>
      obtain ⟨held, part⟩ := progress
      dsimp only at part
      right
      refine ⟨left, ?_⟩
      dsimp only
      rw [part, write_write]
  | openedCopy => exact progress
  | copyFailed => exact progress
  | resynced => exact progress
  | removed =>
      obtain ⟨mtime, copied⟩ := progress
      dsimp only at copied
      refine ⟨.copied mtime, trivial, ?_⟩
      dsimp only
      rw [copied]
      unfold Fs.write Fs.remove
      exact Function.update_comm (Ne.symm different) _ _ _
  | removeFailed =>
      obtain ⟨mtime, copied⟩ := progress
      exact .inr ⟨_, copied⟩

/-- Nothing is removed that has not arrived. -/
structure Kept (source target : Path) (file : File) (state : State) :
    Prop where
  somewhere : state.fs.bytesAt source = some file.bytes ∨
    state.fs.bytesAt target = some file.bytes
  moved : state.stage = .returned true →
    state.fs.bytesAt target = some file.bytes ∧ state.fs source = none
  refused : state.stage = .returned false → state.fs source = some file

theorem Progress.present (different : source ≠ target)
    (present : fs source = some file)
    (progress : Progress fs source target file state)
    (running : state.stage ≠ .returned true) :
    state.fs source = some file := by
  have written : ∀ left, state.fs = fs.write target left →
      state.fs source = some file := by
    intro left equal
    rw [equal]
    exact present_of_write different present left
  have unchanged : state.fs = fs → state.fs source = some file := by
    intro equal
    rw [equal]
    exact present
  unfold Progress at progress
  split at progress
  · exact unchanged progress
  · exact unchanged progress
  · exact unchanged progress
  · exact unchanged progress.1
  · obtain ⟨-, -, -, mtime, copied⟩ := progress
    exact written _ copied
  · obtain ⟨left, copied⟩ := progress
    exact written left copied
  · rename_i stage
    exact absurd stage running
  · rcases progress with same | ⟨left, copied⟩
    · exact unchanged same
    · exact written left copied
  · obtain ⟨mtime, copied⟩ := progress
    exact written _ copied

theorem Progress.kept (different : source ≠ target)
    (present : fs source = some file)
    (progress : Progress fs source target file state) :
    Kept source target file state := by
  by_cases stage : state.stage = .returned true
  · have ended := progress
    rw [Progress, stage] at ended
    obtain ⟨outcome, -, moved⟩ := ended
    have arrived : state.fs.bytesAt target = some file.bytes := by
      unfold Fs.bytesAt
      rw [moved, Fs.write_same, Option.map_some, outcome.arriving_bytes]
    have gone : state.fs source = none := by
      rw [moved, Fs.write_other _ _ different, Fs.remove_same]
    exact {
      somewhere := .inr arrived
      moved := fun _ => ⟨arrived, gone⟩
      refused := fun refused => by
        rw [stage] at refused
        cases refused }
  · have still := progress.present different present stage
    exact {
      somewhere := .inl (by rw [Fs.bytesAt, still, Option.map_some])
      moved := fun moved => absurd moved stage
      refused := fun _ => still }

theorem progress_run {stage : Stage} {calls : List Call}
    (different : source ≠ target) (present : fs source = some file)
    (progress : Progress fs source target file (before fs target stage)) :
    Visits (step source target) (Progress fs source target file)
      (before fs target stage) calls :=
  visits_of_preserved _
    (fun _ _ _ progress taken =>
      progress_step different present progress taken)
    progress calls

end Steps

/-- For every outcome of every call, the complete bytes are at one of the two
paths at every step; a true result means that they are at the target and the
source is gone, a false one that the source is as it was. -/
theorem moveFile_keeps {fs : Fs} {source target : Path} {file : File}
    (different : source ≠ target) (present : fs source = some file)
    (calls : List Call) :
    Visits (step source target) (Kept source target file)
      (before fs target .renaming) calls := by
  have start : Progress fs source target file
      (before fs target .renaming) := rfl
  exact (progress_run different present start).mono
    fun _ progress => progress.kept different present

def twoBytes : File where
  bytes := [0x49, 0x2a]
  mtime := 0

/-- It is at `/watch/a.nef`, and another file at the target. -/
def beforeMove : Fs := fun path =>
  if path = "/watch/a.nef" then some twoBytes
  else if path = "/archive/a.nef" then some ⟨[1, 2, 3], 0⟩
  else none

/-- A copy that stops behind one byte, and the library copy. -/
def shortCopy : List Call :=
  [.rename false, .openSource true, .fstat true, .openTarget true 10,
    .copyFileRange 1 11, .copyFileRange 0 11, .copyFile true 12 twoBytes,
    .openCopy true, .fsyncCopy true, .remove true]

theorem moveFile_keeps_shortCopy :
    ∃ final, run (step "/watch/a.nef" "/archive/a.nef")
        (before beforeMove "/archive/a.nef" .renaming) shortCopy =
          some final ∧
      final.fs.bytesAt "/archive/a.nef" = some [0x49, 0x2a] ∧
      final.fs "/watch/a.nef" = none := by
  have different : "/watch/a.nef" ≠ "/archive/a.nef" := by decide
  have present : beforeMove "/watch/a.nef" = some twoBytes := rfl
  have kept := moveFile_keeps different present shortCopy
  have ends : ∃ final, run (step "/watch/a.nef" "/archive/a.nef")
      (before beforeMove "/archive/a.nef" .renaming) shortCopy =
        some final ∧ final.stage = .returned true :=
    exists_run_of_decide (by decide +kernel)
  obtain ⟨final, result, stage⟩ := ends
  exact ⟨final, result, (kept.final result).moved stage⟩

theorem moveFile_of_run {fs : Fs} {source target : Path} {file : File}
    {calls : List Call} {final : State} {result : Bool}
    (different : source ≠ target) (present : fs source = some file)
    (reached : run (step source target) (before fs target .renaming) calls =
      some final)
    (returned : final.stage = .returned result) :
    ∃ outcome, moveFile fs source target outcome =
      some (final.fs, result) := by
  have start : Progress fs source target file
      (before fs target .renaming) := rfl
  have progress := (progress_run different present start).final reached
  rw [Progress, returned] at progress
  cases result with
  | true =>
      obtain ⟨outcome, ok, moved⟩ := progress
      refine ⟨outcome, ?_⟩
      cases outcome with
      | renamed => simp [moveFile, present, moved]
      | copied mtime => simp [moveFile, present, moved]
      | failed left => exact ok.elim
  | false =>
      rcases progress with same | ⟨left, copied⟩
      · exact ⟨.failed none, by rw [moveFile, same]⟩
      · refine ⟨.failed (some left), ?_⟩
        rw [moveFile, present, copied]
        rfl

end Move

end RawImport
