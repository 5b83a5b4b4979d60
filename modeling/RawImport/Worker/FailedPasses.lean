import RawImport.Worker.DngNames
import RawImport.Worker.Pass

/-!
# Failed passes

Hashing, sequence allocation and conversion fail at different depths of a pass
and share `move_to_dead_letter`.  Up to there a pass on its own has touched
neither the imports nor any file; behind it the source is where it was, or in
the dead-letter directory.
-/

namespace RawImport

namespace Worker

namespace ProcessFile

open PathText Transition

variable {platform : Platform} {cfg : Config} {path : Path}

/-- The stages of a pass from its start to its failure. -/
def Stage.unsettled : Stage → Bool
  | .fingerprint => true
  | .cacheLookup _ => true
  | .hash _ => true
  | .cacheStore _ _ => true
  | .lookup _ => true
  | .exif _ => true
  | .allocate _ _ => true
  | .convert _ => true
  | .deadLetter _ => true
  | _ => false

/-- Imports, alerts, files and the failure count of the path are as before. -/
structure Untouched (path : Path) (before shared : Shared) : Prop where
  imports : shared.db.imports = before.db.imports
  alerts : shared.db.alerts = before.db.alerts
  fs : shared.fs = before.fs
  failures : shared.impl.failCounts path = before.impl.failCounts path

theorem Untouched.trans {first second third : Shared}
    (earlier : Untouched path first second)
    (later : Untouched path second third) : Untouched path first third where
  imports := later.imports.trans earlier.imports
  alerts := later.alerts.trans earlier.alerts
  fs := later.fs.trans earlier.fs
  failures := later.failures.trans earlier.failures

/-- A failing conversion leaves no output file. -/
def Event.Clean : Event → Prop
  | .convert false output => output = none
  | _ => True

theorem allocateSequence_alerts (db : Db) (mariadb : Mariadb)
    (outcome : Db.AllocateOutcome) :
    (db.allocateSequence mariadb outcome).1.alerts = db.alerts := by
  have deleted : ∀ (db : Db) matching executed,
      (db.deleteSequences matching executed).alerts = db.alerts := by
    intro db matching executed
    unfold Db.deleteSequences
    split <;> rfl
  unfold Db.allocateSequence
  simp only
  split <;> simp only [deleted]

theorem settled_after (failure : Failure) :
    failure.after.unsettled = false := by
  cases failure with
  | hash => rfl
  | sequence => rfl
  | conversion => rfl

theorem Step.untouched {shared after : Shared} {stage stage' : Stage}
    {event : Event}
    (step : Step platform cfg path shared stage event after stage')
    (clean : event.Clean) (ahead : stage'.unsettled = true) :
    stage.unsettled = true ∧ Untouched path shared after := by
  cases step with
  | noSequence =>
      exact ⟨rfl, Db.allocateSequence_imports _,
        allocateSequence_alerts _ _ _, rfl, rfl⟩
  | allocate =>
      exact ⟨rfl, Db.allocateSequence_imports _,
        allocateSequence_alerts _ _ _, rfl, rfl⟩
  | conversionFailed =>
      cases clean
      exact ⟨rfl, rfl, rfl, rfl, rfl⟩
  | insert =>
      split at ahead
      · cases ahead
      · cases ahead
  | countFailure =>
      split at ahead
      · cases ahead
      · rw [settled_after] at ahead
        cases ahead
  | moveDead =>
      split at ahead
      · cases ahead
      · rw [settled_after] at ahead
        cases ahead
  | alert =>
      rw [settled_after] at ahead
      cases ahead
  | duplicate => cases ahead
  | clearDuplicate => cases ahead
  | moveDuplicate => cases ahead
  | converted => cases ahead
  | clearConverted => cases ahead
  | hashOutput => cases ahead
  | thumbnail => cases ahead
  | archive => cases ahead
  | deadLetter => cases ahead
  | release => cases ahead
  | _ => exact ⟨rfl, rfl, rfl, rfl, rfl⟩

def runPass (platform : Platform) (cfg : Config) (path : Path)
    (state : Shared × Stage) (events : List Event) :
    Option (Shared × Stage) :=
  run (advance platform cfg path) state (events.map .pass)

theorem runPass_cons {shared : Shared} {stage : Stage} {event : Event}
    {events : List Event} {final : Shared × Stage}
    (reached : runPass platform cfg path (shared, stage) (event :: events) =
      some final) :
    ∃ after stage',
      Step platform cfg path shared stage event after stage' ∧
      runPass platform cfg path (after, stage') events = some final := by
  unfold runPass at reached
  rw [List.map_cons, run_cons_eq_some_iff] at reached
  obtain ⟨⟨after, stage'⟩, taken, rest⟩ := reached
  exact ⟨after, stage', step_of_next taken, rest⟩

theorem untouched_of_run {events : List Event} {shared mid : Shared}
    {stage last : Stage} (clean : ∀ event ∈ events, event.Clean)
    (ahead : last.unsettled = true)
    (reached : runPass platform cfg path (shared, stage) events =
      some (mid, last)) :
    stage.unsettled = true ∧ Untouched path shared mid := by
  induction events generalizing shared stage with
  | nil =>
      cases reached
      exact ⟨ahead, rfl, rfl, rfl, rfl⟩
  | cons event events ih =>
      obtain ⟨after, stage', taken, rest⟩ := runPass_cons reached
      obtain ⟨onward, later⟩ :=
        ih (fun other member => clean other (List.mem_cons_of_mem _ member))
          rest
      obtain ⟨here, now⟩ := taken.untouched
        (clean event List.mem_cons_self) onward
      exact ⟨here, now.trans later⟩

/-- The failure count of the path with this failure. -/
def failureCount (shared : Shared) (path : Path) : Int :=
  (shared.impl.failCounts path).getD 0 + 1

def deadAlert (path : Path) (count : Int) : AlertRow where
  severity := "error"
  category := "worker"
  message := alertMessage path count
  refSequence := ""

/-- The source is at its path and no alert was raised. -/
structure InPlace (path : Path) (before after : Shared) : Prop where
  file : after.fs path = before.fs path
  alerts : after.db.alerts = before.db.alerts

/-- The source was moved to the dead-letter directory, and its alert may have
been raised. -/
structure MovedAway (cfg : Config) (path : Path) (count : Int)
    (events : List Event) (before after : Shared) : Prop where
  moved : ∃ outcome, .move outcome ∈ events ∧ outcome.Ok
  bytes : ∃ file, before.fs path = some file ∧
    after.fs.bytesAt (deadPath cfg path count) = some file.bytes
  alerts : after.db.alerts = before.db.alerts ∨
    after.db.alerts = before.db.alerts ++ [deadAlert path count]

/-- Imports and the other files are as before. -/
structure Apart (cfg : Config) (path : Path) (count : Int)
    (before after : Shared) : Prop where
  imports : after.db.imports = before.db.imports
  others : ∀ other, other ≠ path → other ≠ deadPath cfg path count →
    after.fs other = before.fs other

theorem deadPath_ne (cfg : Config) (path : Path) (count : Int) :
    path ≠ deadPath cfg path count := by
  intro same
  have bareName : Bare (filename path ++ ".failcount." ++ toString count) :=
    bare_append (bare_append (bare_filename path) (by decide))
      (bare_toString count)
  have names := congrArg filename same
  rw [deadPath, filename_separated _ bareName, String.append_assoc] at names
  have lengths := congrArg String.length names
  rw [String.length_append, String.length_append] at lengths
  have suffix : ".failcount.".length = 11 := by decide
  omega

variable {shared final : Shared} {events : List Event} {failure : Failure}
  {count : Int}

/-- What is left of a pass behind the dead letters keeps files and tables. -/
theorem kept_after
    (ended : runPass platform cfg path (shared, failure.after) events =
      some (final, .done)) :
    final.fs = shared.fs ∧ final.db = shared.db := by
  have done : ∀ {shared : Shared} {events : List Event},
      runPass platform cfg path (shared, .done) events =
          some (final, .done) →
        final = shared := by
    intro shared events ended
    cases events with
    | nil =>
        cases ended
        rfl
    | cons event events =>
        obtain ⟨after, stage, taken, -⟩ := runPass_cons ended
        cases taken
  have release : ∀ {events : List Event},
      runPass platform cfg path (shared, .release) events =
          some (final, .done) →
        final.fs = shared.fs ∧ final.db = shared.db := by
    intro events ended
    cases events with
    | nil => cases ended
    | cons event events =>
        obtain ⟨after, stage, taken, rest⟩ := runPass_cons ended
        cases taken with
        | release =>
            rw [done rest]
            exact ⟨rfl, rfl⟩
  cases failure with
  | hash => rw [done ended]; exact ⟨rfl, rfl⟩
  | sequence => rw [done ended]; exact ⟨rfl, rfl⟩
  | conversion => exact release ended

theorem kept_alert
    (ended : runPass platform cfg path (shared, .alert failure count)
      events = some (final, .done)) :
    final.fs = shared.fs ∧ final.db.imports = shared.db.imports ∧
      (final.db.alerts = shared.db.alerts ∨
        final.db.alerts = shared.db.alerts ++ [deadAlert path count]) := by
  cases events with
  | nil => cases ended
  | cons event events =>
      obtain ⟨after, stage, taken, rest⟩ := runPass_cons ended
      cases taken with
      | alert =>
          obtain ⟨files, tables⟩ := kept_after rest
          refine ⟨files, ?_, ?_⟩
          · rw [tables]
            exact Db.insertAlert_imports ..
          · rw [tables]
            unfold Db.insertAlert
            split
            · exact .inr rfl
            · exact .inl rfl

/-- The move to the dead letters takes the source along or leaves it. -/
theorem moved_or_kept
    (ended : runPass platform cfg path (shared, .moveDead failure count)
      events = some (final, .done)) :
    Apart cfg path count shared final ∧
      (InPlace path shared final ∨
        MovedAway cfg path count events shared final) := by
  cases events with
  | nil => cases ended
  | cons event events =>
      obtain ⟨after, stage, taken, rest⟩ := runPass_cons ended
      cases taken with
      | @moveDead _ _ outcome fs moved call =>
          have others : ∀ other, other ≠ path →
              other ≠ deadPath cfg path count → fs other = shared.fs other :=
            fun other notSource notTarget =>
              moveFile_other notSource notTarget call
          rcases moveFile_cases call with ⟨-, rfl, rfl⟩ |
            ⟨left, -, written, rfl⟩ | ⟨file, ok, present, written, rfl⟩
          · obtain ⟨files, tables⟩ := kept_after rest
            exact ⟨⟨by rw [tables], by rw [files]; exact others⟩,
              .inl ⟨by rw [files], by rw [tables]⟩⟩
          · obtain ⟨files, tables⟩ := kept_after rest
            refine ⟨⟨by rw [tables], by rw [files]; exact others⟩,
              .inl ⟨?_, by rw [tables]⟩⟩
            rw [files, written]
            exact Fs.write_other _ _ (deadPath_ne cfg path count)
          · obtain ⟨files, rows, alerts⟩ := kept_alert rest
            refine ⟨⟨rows, by rw [files]; exact others⟩,
              .inr ⟨⟨outcome, List.mem_cons_self, ok⟩, ⟨file, present, ?_⟩,
                alerts⟩⟩
            have there : final.fs =
                (shared.fs.remove path).write (deadPath cfg path count)
                  (outcome.arriving file) :=
              files.trans written
            unfold Fs.bytesAt
            rw [there, Fs.write_same]
            exact congrArg some (MoveOutcome.arriving_bytes outcome file)

/-- The counter section returns the count and whether it reached the limit. -/
theorem countFailure_snd (cfg : Config) (impl : Impl) (path : Path) :
    (impl.countFailure cfg path).2 =
      ((impl.failCounts path).getD 0 + 1,
        decide (cfg.deadLetterMaxRetries ≤
          (impl.failCounts path).getD 0 + 1)) := by
  unfold Impl.countFailure
  simp only
  split
  · rename_i reached
    rw [decide_eq_true reached]
  · rename_i below
    rw [decide_eq_false below]

/-- Behind the failure, the count decides whether the source is moved. -/
theorem counted_or_kept
    (ended : runPass platform cfg path (shared, .deadLetter failure) events =
      some (final, .done)) :
    Apart cfg path (failureCount shared path) shared final ∧
      (InPlace path shared final ∨
        cfg.deadLetterMaxRetries ≤ failureCount shared path ∧
          MovedAway cfg path (failureCount shared path) events shared
            final) := by
  cases events with
  | nil => cases ended
  | cons event events =>
      obtain ⟨released, stage, taken, ended⟩ := runPass_cons ended
      cases taken with
      | deadLetter =>
          cases events with
          | nil => cases ended
          | cons event events =>
              obtain ⟨counted, stage', taken', ended⟩ := runPass_cons ended
              cases taken' with
              | countFailure =>
                  have count : failureCount shared path =
                      ((shared.impl.releaseInflight path).failCounts
                        path).getD 0 + 1 :=
                    rfl
                  rw [countFailure_snd, ← count] at ended
                  simp only [decide_eq_true_eq] at ended
                  split at ended
                  · rename_i limit
                    obtain ⟨apart, place⟩ := moved_or_kept ended
                    refine ⟨⟨apart.imports, apart.others⟩, ?_⟩
                    rcases place with stays | away
                    · exact .inl ⟨stays.file, stays.alerts⟩
                    · obtain ⟨outcome, member, ok⟩ := away.moved
                      refine .inr ⟨limit, ⟨outcome, ?_, ok⟩, away.bytes,
                        away.alerts⟩
                      exact List.mem_cons_of_mem _
                        (List.mem_cons_of_mem _ member)
                  · obtain ⟨files, tables⟩ := kept_after ended
                    constructor
                    · constructor
                      · rw [tables]
                      · intro other _ _
                        rw [files]
                    · left
                      constructor
                      · rw [files]
                      · rw [tables]

theorem Step.deadLetter_of_failed {after : Shared} {stage stage' : Stage}
    {event : Event}
    (step : Step platform cfg path shared stage event after stage')
    (fails : verdict platform path shared stage event = some .failed) :
    ∃ failure, stage' = .deadLetter failure := by
  cases step with
  | cacheHit hit =>
      simp only [verdict, hit, ite_eq_left_iff, reduceCtorEq, imp_false,
        not_not] at fails
      exact ⟨.hash, if_pos fails⟩
  | cacheMiss miss =>
      simp only [verdict, miss] at fails
      cases fails
  | hashForCache readable =>
      simp only [verdict, if_neg readable] at fails
      cases fails
  | hashOnly =>
      simp only [verdict, ite_eq_left_iff, reduceCtorEq, imp_false,
        not_not] at fails
      exact ⟨.hash, if_pos fails⟩
  | cacheStore =>
      simp only [verdict, ite_eq_left_iff, reduceCtorEq, imp_false,
        not_not] at fails
      exact ⟨.hash, if_pos fails⟩
  | duplicate found =>
      simp only [verdict, found] at fails
      cases fails
  | fresh absent =>
      simp only [verdict, absent] at fails
      cases fails
  | noSequence => exact ⟨_, rfl⟩
  | allocate allocated =>
      simp only [verdict, if_neg allocated] at fails
      cases fails
  | conversionFailed => exact ⟨_, rfl⟩
  | _ => cases fails

/-- A pass in which hashing, sequence allocation or conversion fails changes
neither imports nor files but for its source, which stays at its path or, when
the count reached the limit and the move succeeded, is in the dead-letter
directory; only then is there an alert. -/
theorem failedPass_keeps {start mid : Shared} {stage : Stage}
    {event : Event} {later : List Event}
    (clean : ∀ event' ∈ events ++ [event], event'.Clean)
    (works : runPass platform cfg path (start, .fingerprint) events =
      some (mid, stage))
    (fails : verdict platform path mid stage event = some .failed)
    (ends : runPass platform cfg path (mid, stage) (event :: later) =
      some (final, .done)) :
    Apart cfg path (failureCount start path) start final ∧
      (InPlace path start final ∨
        cfg.deadLetterMaxRetries ≤ failureCount start path ∧
          MovedAway cfg path (failureCount start path) later start
            final) := by
  unfold runPass at ends
  rw [List.map_cons, run_cons_eq_some_iff] at ends
  obtain ⟨⟨failed, stage'⟩, taken, rest⟩ := ends
  obtain ⟨failure, rfl⟩ := (step_of_next taken).deadLetter_of_failed fails
  have whole : runPass platform cfg path (start, .fingerprint)
      (events ++ [event]) = some (failed, .deadLetter failure) := by
    unfold runPass at works ⊢
    rw [List.map_append, run_append, works, Option.bind_some, List.map_cons,
      List.map_nil, run_cons_eq_some_iff]
    exact ⟨_, taken, rfl⟩
  obtain ⟨-, rows, alerts, files, failures⟩ := untouched_of_run clean rfl whole
  have same : failureCount failed path = failureCount start path := by
    unfold failureCount
    rw [failures]
  obtain ⟨apart, place⟩ := counted_or_kept rest
  rw [same] at apart place
  refine ⟨⟨apart.imports.trans rows, ?_⟩, ?_⟩
  · rw [← files]
    exact apart.others
  · rcases place with stays | ⟨limit, away⟩
    · left
      exact ⟨by rw [stays.file, files], stays.alerts.trans alerts⟩
    · right
      refine ⟨limit, away.moved, ?_, ?_⟩
      · rw [← files]
        exact away.bytes
      · rw [← alerts]
        exact away.alerts

def twiceFailed : Shared where
  fs _ := some ⟨[1], 0⟩
  impl := { failCounts := fun _ => some 2 }

/-- The third failure, while the file cannot be opened, moves it away. -/
theorem failedPass_keeps_third :
    ∃ final,
      runPass (.ofTable []) {} "/watch/DSC_1.NEF"
          (twiceFailed, .fingerprint)
          [.fingerprint true true, .go, .hash false, .go, .go,
            .move .renamed, .alert true] = some (final, .done) ∧
        (InPlace "/watch/DSC_1.NEF" twiceFailed final ∨
          ({} : Config).deadLetterMaxRetries ≤
              failureCount twiceFailed "/watch/DSC_1.NEF" ∧
            MovedAway {} "/watch/DSC_1.NEF"
              (failureCount twiceFailed "/watch/DSC_1.NEF")
              [.go, .go, .move .renamed, .alert true] twiceFailed
              final) := by
  have clean : ∀ event ∈ ([.fingerprint true true, .go] ++ [.hash false] :
      List Event), event.Clean := by
    intro event member
    simp only [List.cons_append, List.nil_append, List.mem_cons,
      List.not_mem_nil, or_false] at member
    rcases member with rfl | rfl | rfl <;> trivial
  have works : runPass (.ofTable []) {} "/watch/DSC_1.NEF"
      (twiceFailed, .fingerprint) [.fingerprint true true, .go] =
      some (twiceFailed, .hash (computeFastFingerprint twiceFailed.fs
        "/watch/DSC_1.NEF" true true)) := rfl
  exact ⟨_, rfl, (failedPass_keeps clean works rfl rfl).2⟩

end ProcessFile

end Worker

end RawImport
