import Mathlib.Data.List.Induction
import RawImport.Lib.Run
import RawImport.Worker.ProcessFile

/-!
# One pass

A run of a single pass, stage by stage, with whatever other threads do to the
shared state in between.
-/

namespace RawImport

namespace Worker

namespace ProcessFile

open Transition

/-- What an operation decides about the attempt of its pass. -/
inductive Verdict where
  | failed | duplicate | converted
  deriving DecidableEq, Repr

/-- Hashing, sequence allocation and conversion fail with an empty hash, with
id 0 and with false; a found hash is a duplicate. -/
def verdict (platform : Platform) (path : Path) (shared : Shared) :
    Stage → Event → Option Verdict
  | .cacheLookup fp, .go =>
      match shared.impl.fpCache.hit path fp shared.clock with
      | some (srcHash, _) => if srcHash = "" then some .failed else none
      | none => none
  | .hash _, .hash opened =>
      if sha256File platform.digest shared.fs path opened = "" then
        some .failed
      else none
  | .cacheStore _ srcHash, .go =>
      if srcHash = "" then some .failed else none
  | .lookup srcHash, .lookup executed =>
      match shared.db.getImportByHash platform.mariadb srcHash executed with
      | some _ => some .duplicate
      | none => none
  | .allocate _ _, .allocate outcome =>
      if (shared.db.allocateSequence platform.mariadb outcome).2.1 = 0 then
        some .failed
      else none
  | .convert _, .convert converted _ =>
      if converted then some .converted else some .failed
  | _, _ => none

/-- The verdict that is still to be entered in `fail_counts`. -/
def Stage.uncounted : Stage → Option Verdict
  | .deadLetter _ => some .failed
  | .countFailure _ => some .failed
  | .clearDuplicate => some .duplicate
  | .clearConverted _ => some .converted
  | _ => none

/-- The sections of `fail_mtx`. -/
def Stage.counts : Stage → Bool
  | .countFailure _ => true
  | .clearDuplicate => true
  | .clearConverted _ => true
  | _ => false

theorem uncounted_of_verdict {platform : Platform} {path : Path}
    {shared : Shared} {stage : Stage} {event : Event} {verdict' : Verdict}
    (told : verdict platform path shared stage event = some verdict') :
    stage.uncounted = none := by
  cases stage with
  | deadLetter => cases told
  | countFailure => cases told
  | clearDuplicate => cases told
  | clearConverted => cases told
  | _ => rfl

/-- A verdict waits for the section that enters it, and no section is entered
without one. -/
theorem Step.uncounted {platform : Platform} {cfg : Config} {path : Path}
    {shared after : Shared} {stage stage' : Stage} {event : Event}
    (step : Step platform cfg path shared stage event after stage') :
    if stage.counts then
      verdict platform path shared stage event = none ∧
        stage'.uncounted = none
    else
      stage'.uncounted =
        (verdict platform path shared stage event).or stage.uncounted := by
  have returned : ∀ failure : Failure, failure.after.uncounted = none := by
    intro failure
    cases failure <;> rfl
  have empty : ∀ srcHash : String, (hashed srcHash).uncounted =
      if srcHash = "" then some .failed else none := by
    intro srcHash
    unfold hashed
    split <;> rfl
  cases step with
  | cacheHit hit =>
      show (hashed _).uncounted = Option.or _ none
      rw [empty, Option.or_none]
      simp only [verdict, hit]
  | cacheMiss miss =>
      simp [Stage.counts, verdict, miss, Stage.uncounted]
  | hashForCache readable fast =>
      simp [Stage.counts, verdict, readable, Stage.uncounted]
  | hashOnly uncached =>
      show (hashed _).uncounted = Option.or _ none
      rw [empty, Option.or_none]
      rfl
  | cacheStore =>
      show (hashed _).uncounted = Option.or _ none
      rw [empty, Option.or_none]
      rfl
  | duplicate found =>
      simp [Stage.counts, verdict, found, Stage.uncounted]
  | fresh absent =>
      simp [Stage.counts, verdict, absent, Stage.uncounted]
  | noSequence failed =>
      simp [Stage.counts, verdict, failed, Stage.uncounted]
  | allocate allocated =>
      simp [Stage.counts, verdict, allocated, Stage.uncounted]
  | insert =>
      show Stage.uncounted _ = none
      split <;> rfl
  | countFailure =>
      refine ⟨rfl, ?_⟩
      split
      · rfl
      · exact returned _
  | moveDead =>
      show Stage.uncounted _ = none
      split
      · rfl
      · exact returned _
  | alert => exact returned _
  | clearDuplicate => exact ⟨rfl, rfl⟩
  | clearConverted => exact ⟨rfl, rfl⟩
  | _ => rfl

/-- A stage of the pass, or what other threads do before the next one. -/
inductive Move where
  | pass (event : Event)
  | others (shared : Shared)

def advance (platform : Platform) (cfg : Config) (path : Path) :
    Shared × Stage → Move → Option (Shared × Stage)
  | (shared, stage), .pass event =>
      next platform cfg path shared stage event
  | (_, stage), .others shared => some (shared, stage)

def exifResult : Move → Option ExifResult
  | .pass (.exif ex) => some ex
  | _ => none

def exifResults (moves : List Move) : List ExifResult :=
  moves.filterMap exifResult

variable {platform : Platform} {cfg : Config} {path : Path}

/-- A pass is undated up to its EXIF stage and carries the result of that
stage to its record. -/
def Dated (cfg : Config) (path : Path) (results : List ExifResult) :
    Stage → Prop
  | .fingerprint => results = []
  | .cacheLookup _ => results = []
  | .hash _ => results = []
  | .cacheStore _ _ => results = []
  | .lookup _ => results = []
  | .exif _ => results = []
  | .allocate _ ex => results = [ex]
  | .convert job => results = [job.ex]
  | .clearConverted job => results = [job.ex]
  | .hashOutput job => results = [job.ex]
  | .insert written =>
      ∃ job outHash, written = record cfg path job outHash ∧
        results = [job.ex]
  | _ => True

theorem Dated.hashed {results : List ExifResult} (undated : results = [])
    (srcHash : String) : Dated cfg path results (hashed srcHash) := by
  unfold ProcessFile.hashed
  split
  · trivial
  · exact undated

theorem Dated.after {results : List ExifResult} (failure : Failure) :
    Dated cfg path results failure.after := by
  cases failure with
  | hash => trivial
  | sequence => trivial
  | conversion => trivial

theorem Dated.keep {results : List ExifResult} {shared after : Shared}
    {stage stage' : Stage} {event : Event}
    (dated : Dated cfg path results stage)
    (other : exifResult (.pass event) = none)
    (step : Step platform cfg path shared stage event after stage') :
    Dated cfg path results stage' := by
  cases step with
  | exif => cases other
  | cacheHit => exact Dated.hashed dated _
  | hashOnly => exact Dated.hashed dated _
  | cacheStore => exact Dated.hashed dated _
  | duplicate => trivial
  | clearDuplicate => trivial
  | moveDuplicate => trivial
  | noSequence => trivial
  | conversionFailed => trivial
  | hashOutput => exact ⟨_, _, rfl, dated⟩
  | insert =>
      split
      · trivial
      · trivial
  | thumbnail => trivial
  | archive => trivial
  | deadLetter => trivial
  | countFailure =>
      split
      · trivial
      · exact Dated.after _
  | moveDead =>
      split
      · trivial
      · exact Dated.after _
  | alert => exact Dated.after _
  | release => trivial
  | _ => exact dated

theorem Dated.advance {results : List ExifResult}
    {before after : Shared × Stage} {move : Move}
    (dated : Dated cfg path results before.2)
    (taken : advance platform cfg path before move = some after) :
    Dated cfg path (results ++ exifResults [move]) after.2 := by
  obtain ⟨shared, stage⟩ := before
  obtain ⟨shared', stage'⟩ := after
  cases move with
  | others elsewhere =>
      cases taken
      rw [exifResults, List.filterMap_cons_none rfl, List.filterMap_nil,
        List.append_nil]
      exact dated
  | pass event =>
      have step := step_of_next taken
      cases other : exifResult (.pass event) with
      | none =>
          rw [exifResults, List.filterMap_cons_none other,
            List.filterMap_nil, List.append_nil]
          exact dated.keep other step
      | some ex =>
          rw [exifResults, List.filterMap_cons_some other,
            List.filterMap_nil]
          cases event with
          | exif read =>
              cases other
              cases step with
              | exif => exact congrArg (· ++ _) dated
          | _ => cases other

theorem dated_of_run {start : Shared} {moves : List Move}
    {reached : Shared × Stage}
    (run : run (advance platform cfg path) (start, .fingerprint) moves =
      some reached) :
    Dated cfg path (exifResults moves) reached.2 := by
  induction moves using List.reverseRecOn generalizing reached with
  | nil =>
      cases run
      rfl
  | append_singleton moves move ih =>
      rw [run_append] at run
      obtain ⟨before, earlier, last⟩ := Option.bind_eq_some_iff.mp run
      obtain ⟨after, taken, same⟩ := run_cons_eq_some_iff.mp last
      cases same
      have dated := (ih earlier).advance taken
      rw [exifResults, List.filterMap_append]
      exact dated

end ProcessFile

end Worker

end RawImport
