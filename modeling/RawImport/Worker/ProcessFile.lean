import RawImport.Store.Statements
import RawImport.Worker.State

/-!
# `Worker::ProcessFile` as a stage machine

A pass is a program counter with its live locals.  `next` executes the stage
the pass stands at: one critical section, one file-system call, one database
operation or one external tool run.  The event says how that operation went;
nothing else of the environment is visible to the pass.
-/

namespace RawImport

namespace Worker

open PathText

structure Platform where
  digest : Digest
  mariadb : Mariadb

/-- A platform whose digest is known on the given contents. -/
def Platform.ofTable (table : List (Bytes × Char)) : Platform :=
  { digest := .ofTable table, mariadb := .binary }

/-- What the threads of the worker share. -/
structure Shared where
  clock : Int := 0
  wall : Int := 0
  fs : Fs := fun _ => none
  db : Db := {}
  impl : Impl := {}

namespace ProcessFile

/-- Which stage sent a pass to `move_to_dead_letter`. -/
inductive Failure where
  | hash | sequence | conversion
  deriving DecidableEq, Repr

/-- The locals of a pass from its sequence allocation on. -/
structure Conversion where
  srcHash : String
  ex : ExifResult
  seqId : Int
  seqName : String
  folder : String
  dst : Path
  deriving DecidableEq, Repr

inductive Stage where
  | fingerprint
  | cacheLookup (fp : FastFingerprint)
  | hash (fp : FastFingerprint)
  | cacheStore (fp : FastFingerprint) (srcHash : String)
  | lookup (srcHash : String)
  | clearDuplicate
  | moveDuplicate
  | exif (srcHash : String)
  | allocate (srcHash : String) (ex : ExifResult)
  | convert (job : Conversion)
  | clearConverted (job : Conversion)
  | hashOutput (job : Conversion)
  | insert (record : ImportRecord)
  | thumbnail (record : ImportRecord)
  | archive (record : ImportRecord)
  | deadLetter (failure : Failure)
  | countFailure (failure : Failure)
  | moveDead (failure : Failure) (newRetry : Int)
  | alert (failure : Failure) (newRetry : Int)
  | release
  | done
  deriving DecidableEq, Repr

/-- How the operation of a stage went. -/
inductive Event where
  | go
  | fingerprint (statted opened : Bool)
  | hash (opened : Bool)
  | lookup (executed : Bool)
  | move (outcome : MoveOutcome)
  | exif (ex : ExifResult)
  | allocate (outcome : Db.AllocateOutcome)
  | convert (converted : Bool) (output : Option File)
  | insert (executed : Bool) (now : String)
  | thumbnail (output : Option File)
  | alert (executed : Bool)
  deriving DecidableEq, Repr

/-- `archive_dir/duplicates/<name>`. -/
def duplicatePath (cfg : Config) (path : Path) : Path :=
  cfg.archiveDir ++ "/" ++ "duplicates" ++ "/" ++ filename path

/-- `archive_dir/<folder>/<name>`. -/
def archivePath (cfg : Config) (folder : String) (path : Path) : Path :=
  cfg.archiveDir ++ "/" ++ folder ++ "/" ++ filename path

/-- `archive_dir/failed/<name>.failcount.<n>`. -/
def deadPath (cfg : Config) (path : Path) (newRetry : Int) : Path :=
  cfg.archiveDir ++ "/" ++ "failed" ++ "/" ++
    (filename path ++ ".failcount." ++ toString newRetry)

/-- `output_dir/<folder>/<seq_name>.dng`. -/
def outputPath (cfg : Config) (folder seqName : String) : Path :=
  cfg.outputDir ++ "/" ++ folder ++ "/" ++ (seqName ++ ".dng")

/-- `output_dir/<folder>/<seq_name>.thumb.jpg`. -/
def thumbnailPath (cfg : Config) (folder seqName : String) : Path :=
  cfg.outputDir ++ "/" ++ folder ++ "/" ++ (seqName ++ ".thumb.jpg")

/-- The conversion a successful allocation starts. -/
def conversion (cfg : Config) (srcHash : String) (ex : ExifResult)
    (seqId : Int) (seqName : String) : Conversion :=
  let folder := buildFolderSchema cfg.folderSchema ex.date
  { srcHash := srcHash
    ex := ex
    seqId := seqId
    seqName := seqName
    folder := folder
    dst := outputPath cfg folder seqName }

def record (cfg : Config) (path : Path) (job : Conversion)
    (outHash : String) : ImportRecord :=
  { sequenceId := job.seqId
    sequenceName := job.seqName
    sourcePath := path
    sourceHash := job.srcHash
    outputPath := job.dst
    outputHash := outHash
    cameraModel := "unknown"
    captureDate := job.ex.date
    captureTime := job.ex.time
    folderSchema := job.folder
    conversionSettings :=
      "\x7b\"compression\":\"" ++ cfg.defCompression ++ "\"\x7d"
    status := .completed
    orientation := 0 }

def hashed (srcHash : String) : Stage :=
  if srcHash = "" then .deadLetter .hash else .lookup srcHash

/-- Where `move_to_dead_letter` returns to. -/
def Failure.after : Failure → Stage
  | .hash => .done
  | .sequence => .done
  | .conversion => .release

def alertMessage (path : Path) (newRetry : Int) : String :=
  "Dead letter after " ++ toString newRetry ++ " retries: " ++ path

/-- Writing an output file that a tool may have produced. -/
def produce (fs : Fs) (path : Path) : Option File → Fs
  | some file => fs.write path file
  | none => fs

def next (platform : Platform) (cfg : Config) (path : Path)
    (shared : Shared) : Stage → Event → Option (Shared × Stage)
  | .fingerprint, .fingerprint statted opened =>
      if cfg.fastFingerprint then
        some (shared, .cacheLookup
          (computeFastFingerprint shared.fs path statted opened))
      else some (shared, .hash {})
  | .cacheLookup fp, .go =>
      match shared.impl.fpCache.hit path fp shared.clock with
      | some (srcHash, cache) =>
          some ({ shared with
            impl := { shared.impl with fpCache := cache } }, hashed srcHash)
      | none => some (shared, .hash fp)
  | .hash fp, .hash opened =>
      let srcHash := sha256File platform.digest shared.fs path opened
      if srcHash ≠ "" ∧ cfg.fastFingerprint then
        some (shared, .cacheStore fp srcHash)
      else some (shared, hashed srcHash)
  | .cacheStore fp srcHash, .go =>
      some ({ shared with
        impl := { shared.impl with
          fpCache :=
            shared.impl.fpCache.store path fp srcHash shared.clock } },
        hashed srcHash)
  | .lookup srcHash, .lookup executed =>
      match shared.db.getImportByHash platform.mariadb srcHash executed with
      | some _ => some (shared, .clearDuplicate)
      | none => some (shared, .exif srcHash)
  | .clearDuplicate, .go =>
      some ({ shared with impl := shared.impl.clearFailures path },
        .moveDuplicate)
  | .moveDuplicate, .move outcome =>
      (moveFile shared.fs path (duplicatePath cfg path) outcome).map
        fun result => ({ shared with fs := result.1 }, .release)
  | .exif srcHash, .exif ex => some (shared, .allocate srcHash ex)
  | .allocate srcHash ex, .allocate outcome =>
      let (db, seqId, seqName) :=
        shared.db.allocateSequence platform.mariadb outcome
      if seqId = 0 then
        some ({ shared with db := db }, .deadLetter .sequence)
      else
        some ({ shared with db := db },
          .convert (conversion cfg srcHash ex seqId seqName))
  | .convert job, .convert converted output =>
      let produced := { shared with fs := produce shared.fs job.dst output }
      if converted then some (produced, .clearConverted job)
      else some (produced, .deadLetter .conversion)
  | .clearConverted job, .go =>
      some ({ shared with impl := shared.impl.clearFailures path },
        .hashOutput job)
  | .hashOutput job, .hash opened =>
      some (shared, .insert (record cfg path job
        (sha256File platform.digest shared.fs job.dst opened)))
  | .insert record, .insert executed now =>
      let db :=
        (shared.db.insertImport platform.mariadb record executed now).1
      if cfg.genThumbJpeg then
        some ({ shared with db := db }, .thumbnail record)
      else some ({ shared with db := db }, .archive record)
  | .thumbnail record, .thumbnail output =>
      some ({ shared with
        fs := produce shared.fs
          (thumbnailPath cfg record.folderSchema record.sequenceName)
          output }, .archive record)
  | .archive record, .move outcome =>
      (moveFile shared.fs path
        (archivePath cfg record.folderSchema path) outcome).map
        fun result => ({ shared with fs := result.1 }, .release)
  | .deadLetter failure, .go =>
      some ({ shared with impl := shared.impl.releaseInflight path },
        .countFailure failure)
  | .countFailure failure, .go =>
      let (impl, newRetry, shouldDeadLetter) :=
        shared.impl.countFailure cfg path
      if shouldDeadLetter then
        some ({ shared with impl := impl }, .moveDead failure newRetry)
      else some ({ shared with impl := impl }, failure.after)
  | .moveDead failure newRetry, .move outcome =>
      (moveFile shared.fs path (deadPath cfg path newRetry) outcome).map
        fun result =>
          ({ shared with fs := result.1 },
            if result.2 then .alert failure newRetry else failure.after)
  | .alert failure newRetry, .alert executed =>
      some ({ shared with
        db := (shared.db.insertAlert "error" "worker"
          (alertMessage path newRetry) "" executed).1 }, failure.after)
  | .release, .go =>
      some ({ shared with impl := shared.impl.releaseInflight path }, .done)
  | _, _ => none

/-- Every transition of a pass, with the condition that selects it. -/
inductive Step (platform : Platform) (cfg : Config) (path : Path)
    (shared : Shared) : Stage → Event → Shared → Stage → Prop where
  | fingerprint {statted opened : Bool}
      (fast : cfg.fastFingerprint = true) :
      Step platform cfg path shared .fingerprint
        (.fingerprint statted opened) shared
        (.cacheLookup (computeFastFingerprint shared.fs path statted opened))
  | noFingerprint {statted opened : Bool}
      (slow : cfg.fastFingerprint = false) :
      Step platform cfg path shared .fingerprint
        (.fingerprint statted opened) shared (.hash {})
  | cacheHit {fp : FastFingerprint} {srcHash : String} {cache : FpCache}
      (hit : shared.impl.fpCache.hit path fp shared.clock =
        some (srcHash, cache)) :
      Step platform cfg path shared (.cacheLookup fp) .go
        { shared with impl := { shared.impl with fpCache := cache } }
        (hashed srcHash)
  | cacheMiss {fp : FastFingerprint}
      (miss : shared.impl.fpCache.hit path fp shared.clock = none) :
      Step platform cfg path shared (.cacheLookup fp) .go shared (.hash fp)
  | hashForCache {fp : FastFingerprint} {opened : Bool}
      (readable : sha256File platform.digest shared.fs path opened ≠ "")
      (fast : cfg.fastFingerprint = true) :
      Step platform cfg path shared (.hash fp) (.hash opened) shared
        (.cacheStore fp (sha256File platform.digest shared.fs path opened))
  | hashOnly {fp : FastFingerprint} {opened : Bool}
      (uncached : ¬(sha256File platform.digest shared.fs path opened ≠ "" ∧
        cfg.fastFingerprint = true)) :
      Step platform cfg path shared (.hash fp) (.hash opened) shared
        (hashed (sha256File platform.digest shared.fs path opened))
  | cacheStore {fp : FastFingerprint} {srcHash : String} :
      Step platform cfg path shared (.cacheStore fp srcHash) .go
        { shared with
          impl := { shared.impl with
            fpCache :=
              shared.impl.fpCache.store path fp srcHash shared.clock } }
        (hashed srcHash)
  | duplicate {srcHash : String} {executed : Bool} {row : ImportRow}
      (found : shared.db.getImportByHash platform.mariadb srcHash executed =
        some row) :
      Step platform cfg path shared (.lookup srcHash) (.lookup executed)
        shared .clearDuplicate
  | fresh {srcHash : String} {executed : Bool}
      (absent : shared.db.getImportByHash platform.mariadb srcHash executed =
        none) :
      Step platform cfg path shared (.lookup srcHash) (.lookup executed)
        shared (.exif srcHash)
  | clearDuplicate :
      Step platform cfg path shared .clearDuplicate .go
        { shared with impl := shared.impl.clearFailures path } .moveDuplicate
  | moveDuplicate {outcome : MoveOutcome} {fs : Fs} {moved : Bool}
      (call : moveFile shared.fs path (duplicatePath cfg path) outcome =
        some (fs, moved)) :
      Step platform cfg path shared .moveDuplicate (.move outcome)
        { shared with fs := fs } .release
  | exif {srcHash : String} {ex : ExifResult} :
      Step platform cfg path shared (.exif srcHash) (.exif ex) shared
        (.allocate srcHash ex)
  | noSequence {srcHash : String} {ex : ExifResult}
      {outcome : Db.AllocateOutcome}
      (failed : (shared.db.allocateSequence platform.mariadb outcome).2.1 =
        0) :
      Step platform cfg path shared (.allocate srcHash ex)
        (.allocate outcome)
        { shared with
          db := (shared.db.allocateSequence platform.mariadb outcome).1 }
        (.deadLetter .sequence)
  | allocate {srcHash : String} {ex : ExifResult}
      {outcome : Db.AllocateOutcome}
      (allocated :
        (shared.db.allocateSequence platform.mariadb outcome).2.1 ≠ 0) :
      Step platform cfg path shared (.allocate srcHash ex)
        (.allocate outcome)
        { shared with
          db := (shared.db.allocateSequence platform.mariadb outcome).1 }
        (.convert (conversion cfg srcHash ex
          (shared.db.allocateSequence platform.mariadb outcome).2.1
          (shared.db.allocateSequence platform.mariadb outcome).2.2))
  | converted {job : Conversion} {output : Option File} :
      Step platform cfg path shared (.convert job) (.convert true output)
        { shared with fs := produce shared.fs job.dst output }
        (.clearConverted job)
  | conversionFailed {job : Conversion} {output : Option File} :
      Step platform cfg path shared (.convert job) (.convert false output)
        { shared with fs := produce shared.fs job.dst output }
        (.deadLetter .conversion)
  | clearConverted {job : Conversion} :
      Step platform cfg path shared (.clearConverted job) .go
        { shared with impl := shared.impl.clearFailures path }
        (.hashOutput job)
  | hashOutput {job : Conversion} {opened : Bool} :
      Step platform cfg path shared (.hashOutput job) (.hash opened) shared
        (.insert (record cfg path job
          (sha256File platform.digest shared.fs job.dst opened)))
  | insert {record : ImportRecord} {executed : Bool} {now : String} :
      Step platform cfg path shared (.insert record) (.insert executed now)
        { shared with
          db := (shared.db.insertImport platform.mariadb record executed
            now).1 }
        (if cfg.genThumbJpeg = true then .thumbnail record
          else .archive record)
  | thumbnail {record : ImportRecord} {output : Option File} :
      Step platform cfg path shared (.thumbnail record) (.thumbnail output)
        { shared with
          fs := produce shared.fs
            (thumbnailPath cfg record.folderSchema record.sequenceName)
            output } (.archive record)
  | archive {record : ImportRecord} {outcome : MoveOutcome} {fs : Fs}
      {moved : Bool}
      (call : moveFile shared.fs path
        (archivePath cfg record.folderSchema path) outcome =
        some (fs, moved)) :
      Step platform cfg path shared (.archive record) (.move outcome)
        { shared with fs := fs } .release
  | deadLetter {failure : Failure} :
      Step platform cfg path shared (.deadLetter failure) .go
        { shared with impl := shared.impl.releaseInflight path }
        (.countFailure failure)
  | countFailure {failure : Failure} :
      Step platform cfg path shared (.countFailure failure) .go
        { shared with impl := (shared.impl.countFailure cfg path).1 }
        (if (shared.impl.countFailure cfg path).2.2 = true then
          .moveDead failure (shared.impl.countFailure cfg path).2.1
        else failure.after)
  | moveDead {failure : Failure} {newRetry : Int} {outcome : MoveOutcome}
      {fs : Fs} {moved : Bool}
      (call : moveFile shared.fs path (deadPath cfg path newRetry) outcome =
        some (fs, moved)) :
      Step platform cfg path shared (.moveDead failure newRetry)
        (.move outcome) { shared with fs := fs }
        (if moved = true then .alert failure newRetry else failure.after)
  | alert {failure : Failure} {newRetry : Int} {executed : Bool} :
      Step platform cfg path shared (.alert failure newRetry)
        (.alert executed)
        { shared with
          db := (shared.db.insertAlert "error" "worker"
            (alertMessage path newRetry) "" executed).1 } failure.after
  | release :
      Step platform cfg path shared .release .go
        { shared with impl := shared.impl.releaseInflight path } .done

theorem step_of_next {platform : Platform} {cfg : Config} {path : Path}
    {shared after : Shared} {stage stage' : Stage} {event : Event}
    (result : next platform cfg path shared stage event =
      some (after, stage')) :
    Step platform cfg path shared stage event after stage' := by
  unfold next at result
  split at result
  · split at result
    · rename_i fast
      cases result
      exact .fingerprint fast
    · rename_i slow
      cases result
      exact .noFingerprint (by simpa using slow)
  · split at result
    · rename_i hit
      cases result
      exact .cacheHit hit
    · rename_i miss
      cases result
      exact .cacheMiss miss
  · simp only at result
    split at result
    · rename_i cached
      cases result
      exact .hashForCache cached.1 cached.2
    · rename_i uncached
      cases result
      exact .hashOnly uncached
  · cases result
    exact .cacheStore
  · split at result
    · rename_i found
      cases result
      exact .duplicate found
    · rename_i absent
      cases result
      exact .fresh absent
  · cases result
    exact .clearDuplicate
  · obtain ⟨⟨fs, moved⟩, call, equality⟩ := Option.map_eq_some_iff.mp result
    cases equality
    exact .moveDuplicate call
  · cases result
    exact .exif
  · simp only at result
    split at result
    · rename_i failed
      cases result
      exact .noSequence failed
    · rename_i allocated
      cases result
      exact .allocate allocated
  · simp only at result
    split at result
    · rename_i success
      cases result
      subst success
      exact .converted
    · rename_i failed
      cases result
      rw [Bool.not_eq_true] at failed
      subst failed
      exact .conversionFailed
  · cases result
    exact .clearConverted
  · cases result
    exact .hashOutput
  · rename_i record executed now
    have step : Step platform cfg path shared (.insert record)
        (.insert executed now) _ _ := .insert
    simp only at result
    split at result
    · rename_i thumb
      cases result
      simpa [thumb] using step
    · rename_i noThumb
      cases result
      simpa [noThumb] using step
  · cases result
    exact .thumbnail
  · obtain ⟨⟨fs, moved⟩, call, equality⟩ := Option.map_eq_some_iff.mp result
    cases equality
    exact .archive call
  · cases result
    exact .deadLetter
  · rename_i failure
    have step : Step platform cfg path shared (.countFailure failure) .go
        _ _ := .countFailure
    simp only at result
    split at result
    · rename_i reached
      cases result
      simpa [reached] using step
    · rename_i below
      cases result
      simpa [below] using step
  · obtain ⟨⟨fs, moved⟩, call, equality⟩ := Option.map_eq_some_iff.mp result
    cases equality
    exact .moveDead call
  · cases result
    exact .alert
  · cases result
    exact .release
  · cases result

section Held

variable {β : Type*} (held : Stage → Option β)

/-- Without a digest or with one that is looked up next, a pass holds nothing
else. -/
theorem held_hashed (dead : held (.deadLetter .hash) = none)
    (lookup : ∀ srcHash, held (.lookup srcHash) = none) (srcHash : String) :
    held (hashed srcHash) = none := by
  unfold hashed
  split
  · exact dead
  · exact lookup srcHash

/-- A pass that comes back from `move_to_dead_letter` holds nothing. -/
theorem held_after (done : held .done = none)
    (release : held .release = none) (failure : Failure) :
    held failure.after = none := by
  cases failure with
  | hash => exact done
  | sequence => exact done
  | conversion => exact release

theorem held_ite_after {stage : Stage} {condition : Prop}
    [Decidable condition] (none : held stage = none)
    (done : held .done = Option.none) (release : held .release = Option.none)
    (failure : Failure) :
    held (if condition then stage else failure.after) = Option.none := by
  split
  · exact none
  · exact held_after held done release failure

end Held

end ProcessFile

end Worker

end RawImport
