import RawImport.Worker.Machine

/-!
# Records of archived sources

A pass archives its source whatever `InsertImport` returned.  The insert is
refused when its statement fails or the row breaks the schema; this module
shows that a refused insert is the only way to an archived source without a
record.
-/

namespace RawImport

namespace Worker

open Transition

/-- A row with the record's source hash and output path. -/
def Recorded (db : Db) (record : ImportRecord) : Prop :=
  ∃ row ∈ db.imports, row.sourceHash = record.sourceHash ∧
    row.outputPath = record.outputPath

instance (db : Db) (record : ImportRecord) :
    Decidable (Recorded db record) :=
  inferInstanceAs (Decidable (∃ row ∈ db.imports, _))

namespace ProcessFile

/-- The record of a pass that has its insert behind it and its archive move
before it. -/
def Stage.toArchive : Stage → Option ImportRecord
  | .thumbnail record => some record
  | .archive record => some record
  | _ => none

section Tables

variable {platform : Platform} {cfg : Config} {path : Path}
  {shared after : Shared} {stage stage' : Stage} {event : Event}

theorem Step.imports
    (step : Step platform cfg path shared stage event after stage') :
    ∀ row ∈ shared.db.imports, row ∈ after.db.imports := by
  intro row member
  cases step with
  | insert => exact Db.mem_insertImport member
  | noSequence => simpa using member
  | allocate => simpa using member
  | alert => simpa using member
  | _ => exact member

theorem recorded_mono {db next : Db} {record : ImportRecord}
    (rows : ∀ row ∈ db.imports, row ∈ next.imports)
    (recorded : Recorded db record) : Recorded next record := by
  obtain ⟨row, member, fields⟩ := recorded
  exact ⟨row, rows row member, fields⟩

theorem recorded_insertImport {mariadb : Mariadb} {db : Db}
    {record : ImportRecord} {now : String}
    (accepted : db.Accepts mariadb record) :
    Recorded (db.insertImport mariadb record true now).1 record := by
  rw [Db.insertImport_accepted accepted]
  exact ⟨db.importRow record now,
    List.mem_append_right _ (List.mem_singleton.mpr rfl), rfl, rfl⟩

/-- A pass that awaits its archive move has just left its insert or awaited
it before. -/
theorem Step.toArchive {record : ImportRecord}
    (step : Step platform cfg path shared stage event after stage')
    (awaits : stage'.toArchive = some record) :
    stage.toArchive = some record ∨
      ∃ executed now, stage = .insert record ∧
        event = .insert executed now ∧
        after.db =
          (shared.db.insertImport platform.mariadb record executed
            now).1 := by
  cases step with
  | insert =>
      split at awaits
      · cases awaits
        exact .inr ⟨_, _, rfl, rfl, rfl⟩
      · cases awaits
        exact .inr ⟨_, _, rfl, rfl, rfl⟩
  | thumbnail =>
      cases awaits
      exact .inl rfl
  | cacheHit =>
      rw [held_hashed Stage.toArchive rfl fun _ => rfl] at awaits
      cases awaits
  | hashOnly =>
      rw [held_hashed Stage.toArchive rfl fun _ => rfl] at awaits
      cases awaits
  | cacheStore =>
      rw [held_hashed Stage.toArchive rfl fun _ => rfl] at awaits
      cases awaits
  | countFailure =>
      rw [held_ite_after Stage.toArchive rfl rfl rfl] at awaits
      cases awaits
  | moveDead =>
      rw [held_ite_after Stage.toArchive rfl rfl rfl] at awaits
      cases awaits
  | alert =>
      rw [held_after Stage.toArchive rfl rfl] at awaits
      cases awaits
  | _ => cases awaits

end Tables

end ProcessFile

section Records

variable {n : Nat}

/-- The insert of a pass is taken by the server, unless its row exists. -/
def InsertTaken (platform : Platform) (world : World n) : Action n → Prop
  | .pass thread (.insert executed _) =>
      match world.threads thread with
      | some ⟨_, .insert record⟩ =>
          Recorded world.shared.db record ∨
            (executed = true ∧
              world.shared.db.Accepts platform.mariadb record)
      | _ => True
  | _ => True

instance (platform : Platform) (world : World n) (action : Action n) :
    Decidable (InsertTaken platform world action) := by
  apply @Action.casesOn n _ action <;> intros <;>
    try exact instDecidableTrue
  rename_i thread event
  apply @ProcessFile.Event.casesOn _ event <;> intros <;>
    try exact instDecidableTrue
  dsimp only [InsertTaken]
  generalize world.threads thread = busy
  match busy with
  | none => exact instDecidableTrue
  | some ⟨_, stage⟩ =>
      apply @ProcessFile.Stage.casesOn _ stage <;> intros <;>
        dsimp only <;> infer_instance

/-- A source moves to `archive_dir/<folder>` only with its row in `imports`. -/
def ArchivedRecorded (world : World n) : Action n → Prop
  | .pass thread (.move outcome) =>
      match world.threads thread with
      | some ⟨_, .archive record⟩ =>
          outcome.Ok → Recorded world.shared.db record
      | _ => True
  | _ => True

instance (world : World n) (action : Action n) :
    Decidable (ArchivedRecorded world action) := by
  apply @Action.casesOn n _ action <;> intros <;>
    try exact instDecidableTrue
  rename_i thread event
  apply @ProcessFile.Event.casesOn _ event <;> intros <;>
    try exact instDecidableTrue
  dsimp only [ArchivedRecorded]
  generalize world.threads thread = busy
  match busy with
  | none => exact instDecidableTrue
  | some ⟨_, stage⟩ =>
      apply @ProcessFile.Stage.casesOn _ stage <;> intros <;>
        dsimp only <;> infer_instance

/-- The record a pass is about to archive under exists. -/
def AwaitsRecorded (db : Db) (stage : ProcessFile.Stage) : Prop :=
  ∀ record, stage.toArchive = some record → Recorded db record

theorem awaitsRecorded_step {platform : Platform} {cfg : Config}
    {world after : World n} {action : Action n}
    (holds : world.Passes AwaitsRecorded)
    (insertTaken : InsertTaken platform world action)
    (taken : step platform cfg world action = some after) :
    after.Passes AwaitsRecorded := by
  refine holds.step taken ?_ ?_ ?_
  · intro db record awaits
    cases awaits
  · rintro thread event ⟨path, stage⟩ shared stage' rfl busy passStep
      recorded record awaits
    rcases passStep.toArchive awaits with
      before | ⟨executed, now, rfl, rfl, tables⟩
    · exact ProcessFile.recorded_mono passStep.imports
        (recorded record before)
    · simp only [InsertTaken, busy] at insertTaken
      rcases insertTaken with present | ⟨rfl, accepted⟩
      · exact ProcessFile.recorded_mono passStep.imports present
      · rw [tables]
        exact ProcessFile.recorded_insertImport accepted
  · intro thread event pass shared stage _ _ passStep other otherPass _ _
      recorded record awaits
    exact ProcessFile.recorded_mono passStep.imports
      (recorded record awaits)

/-- Over any number of threads, any interleaving and any failures at every
stage: when the server takes every insert that reaches it, no source is
archived without its row. -/
theorem archivedRecorded_run (platform : Platform) (cfg : Config)
    (clock wall : Int) (fs : Fs) (db : Db) {actions : List (Action n)}
    (insertsTaken : Along (step platform cfg) (InsertTaken platform)
      (World.initial clock wall fs db) actions) :
    Along (step platform cfg) ArchivedRecorded
      (World.initial clock wall fs db) actions := by
  refine along_of_preserved (World.Passes AwaitsRecorded)
    (fun world action after holds => awaitsRecorded_step holds) ?_
    (World.passes_initial _ clock wall fs db) insertsTaken
  intro world action after holds _ _
  cases action with
  | pass thread event =>
      cases event with
      | move outcome =>
          simp only [ArchivedRecorded]
          split
          · rename_i record busy
            exact fun _ => holds thread _ busy record rfl
          · trivial
      | _ => trivial
  | _ => trivial

theorem archivedRecorded_onePhotograph :
    Along (step photographs {}) ArchivedRecorded (onePhotograph 2)
      (scanning "DSC_0001.NEF" ++
        importing 1 "2024-05-01" ⟨[7], 0⟩ true) :=
  archivedRecorded_run photographs {} 0 (60 * nsPerSecond) _ {}
    (by decide +kernel)

/-- A failed insert: the source reaches the archive and no table knows it. -/
theorem archived_unrecorded :
    ¬Along (step photographs {}) ArchivedRecorded (onePhotograph 1)
      (scanning "DSC_0001.NEF" ++
        importing 0 "2024-05-01" ⟨[7], 0⟩ false) ∧
    ∃ world,
      run (step photographs {}) (onePhotograph 1)
        (scanning "DSC_0001.NEF" ++
          importing 0 "2024-05-01" ⟨[7], 0⟩ false) = some world ∧
      world.shared.fs.bytesAt "/watch/DSC_0001.NEF" = none ∧
      world.shared.fs.bytesAt "/archive/2024/05/DSC_0001.NEF" = some [1] ∧
      world.shared.db.imports = [] :=
  ⟨by decide +kernel, exists_run_of_decide (by decide +kernel)⟩

end Records

end Worker

end RawImport
