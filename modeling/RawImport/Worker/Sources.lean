import RawImport.Lib.History
import RawImport.Worker.DngNames
import RawImport.Worker.Fingerprint
import RawImport.Worker.Originals
import RawImport.Worker.Ownership
import RawImport.Worker.Records

/-!
# Sources of completed imports

A row keeps the path its source had in `watch_dir`; the archive move comes
after the row.  `ReconvertDrain` later hands that path to the converter.  The
rows of ended passes are read off the history of a run, and what lies at their
paths is compared with what was hashed.
-/

namespace RawImport

namespace Worker

open PathText Transition

def WatchFile (cfg : Config) (path : Path) : Prop :=
  ∃ name, Bare name ∧ acceptedName name = true ∧
    path = joinPath cfg.watchDir name

theorem WatchFile.filename {cfg : Config} {path : Path}
    (watch : WatchFile cfg path) :
    path = joinPath cfg.watchDir (filename path) ∧
      acceptedName (PathText.filename path) = true := by
  obtain ⟨name, bare, accepted, rfl⟩ := watch
  rw [filename_joinPath cfg.watchDir bare]
  exact ⟨rfl, accepted⟩

theorem WatchFile.eq_of_filename {cfg : Config} {path other : Path}
    (watch : WatchFile cfg path) (otherWatch : WatchFile cfg other)
    (same : PathText.filename other = PathText.filename path) :
    other = path := by
  rw [otherWatch.filename.1, same, ← watch.filename.1]

theorem acceptedName_last {name : String} (bare : Bare name)
    (accepted : acceptedName name = true) :
    name.toList.getLast? ≠ some 'g' := by
  intro last
  have extended : ((extension name).toList.map Char.toLower).getLast? =
      some 'g' := by
    have nonempty : extension name ≠ "" := by
      intro none
      rw [acceptedName, none] at accepted
      simp at accepted
    unfold extension at nonempty ⊢
    simp only [filename_of_bare bare] at nonempty ⊢
    split at nonempty
    · exact (nonempty rfl).elim
    · rename_i proper
      rw [if_neg proper, String.toList_ofList]
      obtain ⟨front, split⟩ := List.getLast?_eq_some_iff.mp last
      have tail : ((front ++ ['g']).reverse.takeWhile (· != '.')).reverse =
          (front.reverse.takeWhile (· != '.')).reverse ++ ['g'] := by
        simp
      rw [split, tail, List.map_cons, List.map_append, ← List.cons_append]
      exact List.getLast?_concat
  rw [acceptedName] at accepted
  simp only [Bool.and_eq_true, Bool.or_eq_true, beq_iff_eq] at accepted
  rcases accepted.1.1.1 with ((ext | ext) | ext) | ext <;>
    · rw [ext] at extended
      revert extended
      decide

theorem not_watchFile_of_last {cfg : Config} {path : Path}
    (last : path.toList.getLast? = some 'g') : ¬WatchFile cfg path := by
  intro watch
  obtain ⟨name, bare, accepted, rfl⟩ := watch
  apply acceptedName_last bare accepted
  unfold joinPath at last
  rw [String.toList_append, List.getLast?_append] at last
  cases end' : name.toList.getLast? with
  | none =>
      have empty : name.toList = [] := List.getLast?_eq_none_iff.mp end'
      have noName : name = "" := String.toList_inj.mp (by simpa using empty)
      subst noName
      exact absurd accepted (by decide)
  | some character => simpa [end'] using last

namespace ProcessFile

theorem getLast?_append_text (text : String) {suffix : String}
    {character : Char} (last : suffix.toList.getLast? = some character) :
    (text ++ suffix).toList.getLast? = some character := by
  rw [String.toList_append, List.getLast?_append, last]
  rfl

theorem outputPath_not_watchFile (cfg : Config) (folder seqName : String) :
    ¬WatchFile cfg (outputPath cfg folder seqName) := by
  apply not_watchFile_of_last
  exact getLast?_append_text _ (getLast?_append_text seqName rfl)

theorem thumbnailPath_not_watchFile (cfg : Config)
    (folder seqName : String) :
    ¬WatchFile cfg (thumbnailPath cfg folder seqName) := by
  apply not_watchFile_of_last
  exact getLast?_append_text _ (getLast?_append_text seqName rfl)

def Stage.target (cfg : Config) (path : Path) : Stage → Option Path
  | .moveDuplicate => some (duplicatePath cfg path)
  | .archive record => some (archivePath cfg record.folderSchema path)
  | _ => none

theorem Stage.target_watchFile {cfg : Config} {path target other : Path}
    {stage : Stage} (moves : stage.target cfg path = some target)
    (watch : WatchFile cfg path) (otherWatch : WatchFile cfg other)
    (reaches : target = other) : other = path := by
  apply watch.eq_of_filename otherWatch
  cases stage with
  | moveDuplicate =>
      cases moves
      rw [← reaches]
      exact filename_separated _ (bare_filename path)
  | archive record =>
      cases moves
      rw [← reaches]
      exact filename_separated _ (bare_filename path)
  | _ => cases moves

def Stage.sourceHash : Stage → Option String
  | .cacheStore _ srcHash => some srcHash
  | .lookup srcHash => some srcHash
  | .exif srcHash => some srcHash
  | .allocate srcHash _ => some srcHash
  | .convert job => some job.srcHash
  | .clearConverted job => some job.srcHash
  | .hashOutput job => some job.srcHash
  | .insert record => some record.sourceHash
  | _ => none

def Stage.output : Stage → Option Path
  | .convert job => some job.dst
  | _ => none

def Stage.inserting : Stage → Option ImportRecord
  | .insert record => some record
  | _ => none

end ProcessFile

section Success

variable (platform : Platform) (cfg : Config)

/-- The file-system or database call of the stage succeeds.  A successful
pass does not come to `move_to_dead_letter`. -/
def CallSucceeds (path : Path) (shared : Shared) :
    ProcessFile.Stage → ProcessFile.Event → Prop
  | .fingerprint, .fingerprint statted opened =>
      statted = true ∧ opened = true
  | .hash _, .hash opened => opened = true ∧ (shared.fs path).isSome
  | .lookup _, .lookup executed => executed = true
  | .moveDuplicate, .move outcome => outcome.Ok
  | .allocate _ _, .allocate outcome =>
      (shared.db.allocateSequence platform.mariadb outcome).2.1 ≠ 0
  | .convert _, .convert converted output =>
      converted = true ∧ output.isSome
  | .hashOutput job, .hash opened =>
      opened = true ∧ (shared.fs job.dst).isSome
  | .insert record, .insert executed _ =>
      executed = true ∧ shared.db.Accepts platform.mariadb record
  | .archive _, .move outcome => outcome.Ok
  | .deadLetter _, _ => False
  | .countFailure _, _ => False
  | .moveDead _ _, _ => False
  | .alert _ _, _ => False
  | _, _ => True

instance (path : Path) (shared : Shared) (stage : ProcessFile.Stage)
    (event : ProcessFile.Event) :
    Decidable (CallSucceeds platform path shared stage event) := by
  apply @ProcessFile.Stage.casesOn _ stage <;> intros <;>
    apply @ProcessFile.Event.casesOn _ event <;> intros <;>
    unfold CallSucceeds <;> infer_instance

variable {n : Nat}

/-- Every call of the passes succeeds and nothing changes from outside. -/
def Undisturbed (state : Tracked (World n) (Action n)) : Action n → Prop
  | .external _ _ => False
  | .pass thread event =>
      match state.now.threads thread with
      | some pass =>
          CallSucceeds platform pass.path state.now.shared pass.stage event
      | none => True
  | _ => True

instance (state : Tracked (World n) (Action n)) (action : Action n) :
    Decidable (Undisturbed platform state action) := by
  apply @Action.casesOn n _ action <;> intros <;>
    try exact instDecidableTrue
  · exact instDecidableFalse
  · dsimp only [Undisturbed]
    generalize state.now.threads _ = busy
    match busy with
    | none => exact instDecidableTrue
    | some _ => infer_instance

def insertedBy (thread : Fin n) (world : World n) :
    Action n → Option ImportRow
  | .pass other (.insert executed now) =>
      if other = thread then
        match world.threads thread with
        | some ⟨_, .insert record⟩ =>
            if executed = true ∧
                world.shared.db.Accepts platform.mariadb record then
              some (world.shared.db.importRow record now)
            else none
        | _ => none
      else none
  | _ => none

def openRow (thread : Fin n) : List (World n × Action n) → Option ImportRow
  | [] => none
  | (world, action) :: past =>
      if action = .finish thread then none
      else match insertedBy platform thread world action with
        | some row => some row
        | none => openRow thread past

def endedRows : List (World n × Action n) → List ImportRow
  | [] => []
  | (_, .finish thread) :: past =>
      (openRow platform thread past).toList ++ endedRows past
  | _ :: past => endedRows past

/-- Every completed row of an ended pass finds its source. -/
def SourcesFound (state : Tracked (World n) (Action n)) : Prop :=
  ∀ row ∈ state.now.shared.db.imports, row.status = .completed →
    row ∈ endedRows platform state.past →
      ∃ file, state.now.shared.fs row.sourcePath = some file ∧
        platform.digest.sha256 file.bytes = row.sourceHash

/-- The archive move of the row's pass is a move onto itself. -/
def InPlace (row : ImportRow) : Prop :=
  ProcessFile.archivePath cfg (row.folderSchema.getD "") row.sourcePath =
    row.sourcePath

instance (row : ImportRow) : Decidable (InPlace cfg row) :=
  inferInstanceAs (Decidable (_ = _))

/-- A pass with a row ends only where `archive_dir/<folder>` is `watch_dir`
and the file is still there, and no later pass moves the file of such a row
to another path. -/
def SourceStays (state : Tracked (World n) (Action n)) :
    Action n → Prop
  | .finish thread => ∀ row ∈ openRow platform thread state.past,
      InPlace cfg row ∧ (state.now.shared.fs row.sourcePath).isSome
  | .pass thread _ => ∀ pass ∈ state.now.threads thread,
      ∀ target ∈ pass.stage.target cfg pass.path,
        ∀ row ∈ endedRows platform state.past,
          row.sourcePath = pass.path → target = pass.path
  | _ => True

instance (state : Tracked (World n) (Action n)) (action : Action n) :
    Decidable (SourceStays platform cfg state action) := by
  apply @Action.casesOn n _ action <;> intros <;>
    dsimp only [SourceStays] <;> infer_instance

end Success

/-- The digest of what the path held at the start. -/
def Original (platform : Platform) (origin : Fs) (path : Path)
    (hash : String) : Prop :=
  ∃ bytes, origin.bytesAt path = some bytes ∧
    platform.digest.sha256 bytes = hash

/-- What a pass on a watched path holds. -/
structure StageSound (platform : Platform) (cfg : Config) (origin : Fs)
    (path : Path) (stage : ProcessFile.Stage) : Prop where
  watch : WatchFile cfg path
  hash : ∀ srcHash, stage.sourceHash = some srcHash →
    Original platform origin path srcHash
  output : ∀ dst, stage.output = some dst → ¬WatchFile cfg dst
  record : ∀ record, stage.inserting = some record →
    record.sourcePath = path ∧ record.status = .completed

namespace ProcessFile

section Sources

variable {platform : Platform} {cfg : Config} {path : Path}
  {shared after : Shared} {stage stage' : Stage} {event : Event}
  {origin : Fs}

theorem sourceHash_hashed {hash srcHash : String}
    (holds : (hashed hash).sourceHash = some srcHash) :
    hash ≠ "" ∧ srcHash = hash := by
  unfold hashed at holds
  split at holds
  · cases holds
  · rename_i nonempty
    cases holds
    exact ⟨nonempty, rfl⟩

/-- A pass only ever carries the digest of what its path held at the
start. -/
theorem Step.sourceHash {srcHash : String}
    (step : Step platform cfg path shared stage event after stage')
    (frame : ∀ bytes, shared.fs.bytesAt path = some bytes →
      origin.bytesAt path = some bytes)
    (cached : ∀ entry, shared.impl.fpCache.find path = some entry →
      Original platform origin path entry.sha256)
    (sound : ∀ srcHash, stage.sourceHash = some srcHash →
      Original platform origin path srcHash)
    (holds : stage'.sourceHash = some srcHash) :
    Original platform origin path srcHash := by
  have readable : ∀ {opened : Bool},
      sha256File platform.digest shared.fs path opened ≠ "" →
      Original platform origin path
        (sha256File platform.digest shared.fs path opened) := by
    intro opened nonempty
    obtain ⟨bytes, present, equal⟩ := bytesAt_of_sha256File nonempty
    exact ⟨bytes, frame bytes present, equal.symm⟩
  cases step with
  | cacheHit hit =>
      obtain ⟨entry, found, -, rfl, -⟩ := FpCache.hit_cases hit
      obtain ⟨-, rfl⟩ := sourceHash_hashed holds
      exact cached entry found
  | hashForCache nonempty =>
      cases holds
      exact readable nonempty
  | hashOnly =>
      obtain ⟨nonempty, rfl⟩ := sourceHash_hashed holds
      exact readable nonempty
  | cacheStore =>
      obtain ⟨-, rfl⟩ := sourceHash_hashed holds
      exact sound _ rfl
  | fresh =>
      cases holds
      exact sound _ rfl
  | exif =>
      cases holds
      exact sound _ rfl
  | allocate =>
      cases holds
      exact sound _ rfl
  | converted =>
      cases holds
      exact sound _ rfl
  | clearConverted =>
      cases holds
      exact sound _ rfl
  | hashOutput =>
      cases holds
      exact sound _ rfl
  | insert => split at holds <;> cases holds
  | countFailure =>
      rw [held_ite_after Stage.sourceHash rfl rfl rfl] at holds
      cases holds
  | moveDead =>
      rw [held_ite_after Stage.sourceHash rfl rfl rfl] at holds
      cases holds
  | alert =>
      rw [held_after Stage.sourceHash rfl rfl] at holds
      cases holds
  | _ => cases holds

theorem Step.output {dst : Path}
    (step : Step platform cfg path shared stage event after stage')
    (holds : stage'.output = some dst) : ¬WatchFile cfg dst := by
  cases step with
  | allocate =>
      cases holds
      exact outputPath_not_watchFile cfg _ _
  | cacheHit =>
      rw [held_hashed Stage.output rfl fun _ => rfl] at holds
      cases holds
  | hashOnly =>
      rw [held_hashed Stage.output rfl fun _ => rfl] at holds
      cases holds
  | cacheStore =>
      rw [held_hashed Stage.output rfl fun _ => rfl] at holds
      cases holds
  | insert => split at holds <;> cases holds
  | countFailure =>
      rw [held_ite_after Stage.output rfl rfl rfl] at holds
      cases holds
  | moveDead =>
      rw [held_ite_after Stage.output rfl rfl rfl] at holds
      cases holds
  | alert =>
      rw [held_after Stage.output rfl rfl] at holds
      cases holds
  | _ => cases holds

/-- The record a pass inserts names its own path and carries what the hash of
the output came to. -/
theorem Step.inserting {record : ImportRecord}
    (step : Step platform cfg path shared stage event after stage')
    (holds : stage'.inserting = some record) :
    (record.sourcePath = path ∧ record.status = .completed) ∧
      ∃ job opened, stage = .hashOutput job ∧ event = .hash opened ∧
        record.outputPath = job.dst ∧ record.outputHash =
          sha256File platform.digest shared.fs job.dst opened := by
  cases step with
  | hashOutput =>
      cases holds
      exact ⟨⟨rfl, rfl⟩, _, _, rfl, rfl, rfl, rfl⟩
  | cacheHit =>
      rw [held_hashed Stage.inserting rfl fun _ => rfl] at holds
      cases holds
  | hashOnly =>
      rw [held_hashed Stage.inserting rfl fun _ => rfl] at holds
      cases holds
  | cacheStore =>
      rw [held_hashed Stage.inserting rfl fun _ => rfl] at holds
      cases holds
  | insert => split at holds <;> cases holds
  | countFailure =>
      rw [held_ite_after Stage.inserting rfl rfl rfl] at holds
      cases holds
  | moveDead =>
      rw [held_ite_after Stage.inserting rfl rfl rfl] at holds
      cases holds
  | alert =>
      rw [held_after Stage.inserting rfl rfl] at holds
      cases holds
  | _ => cases holds

/-- The cache only ever holds digests of what its paths held at the start. -/
theorem Step.cached
    (step : Step platform cfg path shared stage event after stage')
    (sound : ∀ srcHash, stage.sourceHash = some srcHash →
      Original platform origin path srcHash)
    (cached : ∀ other entry, shared.impl.fpCache.find other = some entry →
      Original platform origin other entry.sha256)
    {other : Path} {entry : FpEntry}
    (found : after.impl.fpCache.find other = some entry) :
    Original platform origin other entry.sha256 := by
  rcases step.cache with ⟨-, same⟩ | ⟨fp, old, -, before, assigned⟩ |
    ⟨fp, srcHash, rfl, stored⟩
  · rw [same] at found
    exact cached other entry found
  · rw [assigned, FpCache.find_assign] at found
    split at found
    · rename_i here
      cases found
      rw [here]
      exact cached path old before
    · exact cached other entry found
  · rw [stored] at found
    have assigned := FpCache.find_of_find_evict found
    rw [FpCache.find_assign] at assigned
    split at assigned
    · rename_i here
      cases assigned
      rw [here]
      exact sound srcHash rfl
    · exact cached other entry assigned

/-- What a successful move of a watched file does to a watched path. -/
theorem moved_watched {fs next : Fs} {target other : Path}
    {outcome : MoveOutcome} {moved : Bool}
    (watch : WatchFile cfg path) (otherWatch : WatchFile cfg other)
    (moves : stage.target cfg path = some target) (ok : outcome.Ok)
    (call : moveFile fs path target outcome = some (next, moved)) :
    next other = fs other ∨
      (other = path ∧ ∃ file, fs path = some file ∧
        ((target = path ∧ next.bytesAt path = some file.bytes) ∨
          (target ≠ path ∧ next path = none))) := by
  obtain ⟨file, present, rfl, -⟩ := moveFile_ok ok call
  by_cases here : other = path
  · right
    refine ⟨here, file, present, ?_⟩
    by_cases onto : target = path
    · left
      subst onto
      exact ⟨rfl, by simp [Fs.bytesAt]⟩
    · right
      refine ⟨onto, ?_⟩
      rw [Fs.write_other _ _ (Ne.symm onto), Fs.remove_same]
  · left
    have away : other ≠ target := by
      intro same
      exact here (Stage.target_watchFile moves watch otherWatch same.symm)
    rw [Fs.write_other _ _ away, Fs.remove_other _ here]

theorem produce_watched {fs : Fs} {dst other : Path} (output : Option File)
    (outside : ¬WatchFile cfg dst) (otherWatch : WatchFile cfg other) :
    produce fs dst output other = fs other := by
  cases output with
  | none => rfl
  | some file =>
      apply Fs.write_other
      intro same
      rw [same] at otherWatch
      exact outside otherWatch

/-- A successful stage leaves a watched path alone, or moves the file of its
own path onto itself or away. -/
theorem Step.watched {other : Path}
    (step : Step platform cfg path shared stage event after stage')
    (succeeds : CallSucceeds platform path shared stage event)
    (sound : StageSound platform cfg origin path stage)
    (otherWatch : WatchFile cfg other) :
    after.fs other = shared.fs other ∨
      (other = path ∧ ∃ target file, stage.target cfg path = some target ∧
        shared.fs path = some file ∧
        ((target = path ∧ after.fs.bytesAt path = some file.bytes) ∨
          (target ≠ path ∧ after.fs path = none))) := by
  cases step with
  | moveDuplicate call =>
      have moves : Stage.moveDuplicate.target cfg path = some _ := rfl
      rcases moved_watched sound.watch otherWatch moves succeeds call with
        same | ⟨here, file, present, result⟩
      · exact .inl same
      · exact .inr ⟨here, _, file, rfl, present, result⟩
  | archive call =>
      rename_i record _ _ _
      have moves : (Stage.archive record).target cfg path = some _ := rfl
      rcases moved_watched sound.watch otherWatch moves succeeds call with
        same | ⟨here, file, present, result⟩
      · exact .inl same
      · exact .inr ⟨here, _, file, rfl, present, result⟩
  | moveDead => exact succeeds.elim
  | converted =>
      exact .inl (produce_watched _ (sound.output _ rfl) otherWatch)
  | conversionFailed =>
      exact .inl (produce_watched _ (sound.output _ rfl) otherWatch)
  | thumbnail =>
      exact .inl (produce_watched _
        (thumbnailPath_not_watchFile cfg _ _) otherWatch)
  | _ => exact .inl rfl

end Sources

end ProcessFile

section Runs

variable {n : Nat} {platform : Platform} {cfg : Config} {origin : Fs}

/-- A row that a pass on a watched path has inserted. -/
structure RowSound (platform : Platform) (cfg : Config) (origin : Fs)
    (db : Db) (row : ImportRow) : Prop where
  watch : WatchFile cfg row.sourcePath
  member : row ∈ db.imports
  completed : row.status = .completed
  hash : Original platform origin row.sourcePath row.sourceHash

/-- The pass that inserted the row is before its archive move, or has moved
its file onto itself or away. -/
def Archiving (cfg : Config) (fs : Fs) (row : ImportRow)
    (stage : ProcessFile.Stage) : Prop :=
  (∃ record, stage.toArchive = some record ∧
    row.folderSchema = some record.folderSchema) ∨
  ((stage = .release ∨ stage = .done) ∧
    (InPlace cfg row ∨ fs row.sourcePath = none))

/-- The watched paths hold what they held at the start or nothing, and the
rows of the run tell the truth about it. -/
structure SourceInvariant (platform : Platform) (cfg : Config)
    (origin : Fs) (state : Tracked (World n) (Action n)) : Prop where
  queued : ∀ path ∈ state.now.shared.impl.files, WatchFile cfg path
  passes : ∀ thread pass, state.now.threads thread = some pass →
    StageSound platform cfg origin pass.path pass.stage
  frame : ∀ path, WatchFile cfg path → ∀ bytes,
    state.now.shared.fs.bytesAt path = some bytes →
      origin.bytesAt path = some bytes
  cached : ∀ path entry,
    state.now.shared.impl.fpCache.find path = some entry →
      Original platform origin path entry.sha256
  opened : ∀ thread row, openRow platform thread state.past = some row →
    RowSound platform cfg origin state.now.shared.db row ∧
      ∃ stage, state.now.threads thread = some ⟨row.sourcePath, stage⟩ ∧
        Archiving cfg state.now.shared.fs row stage
  ended : ∀ row ∈ endedRows platform state.past,
    RowSound platform cfg origin state.now.shared.db row ∧
      state.now.shared.fs row.sourcePath ≠ none

theorem sourceInvariant_start (clock wall : Int) (fs : Fs) (db : Db) :
    SourceInvariant platform cfg fs
      (.start (World.initial (n := n) clock wall fs db)) := by
  constructor
  · intro path member
    cases member
  · intro thread pass busy
    cases busy
  · intro path _ bytes present
    exact present
  · intro path entry found
    cases found
  · intro thread row opened
    cases opened
  · intro row member
    cases member

theorem stageSound_fingerprint {path : Path} (watch : WatchFile cfg path) :
    StageSound platform cfg origin path .fingerprint := by
  constructor
  · exact watch
  · intro srcHash holds
    cases holds
  · intro dst holds
    cases holds
  · intro record holds
    cases holds

theorem openRow_quiet {thread : Fin n} {world : World n}
    {action : Action n} {past : List (World n × Action n)}
    (running : action ≠ .finish thread)
    (silent : insertedBy platform thread world action = none) :
    openRow platform thread ((world, action) :: past) =
      openRow platform thread past := by
  simp only [openRow, if_neg running, silent]

theorem endedRows_quiet {world : World n} {action : Action n}
    {past : List (World n × Action n)}
    (running : ∀ thread, action ≠ .finish thread) :
    endedRows platform ((world, action) :: past) =
      endedRows platform past := by
  cases action with
  | finish thread => exact (running thread rfl).elim
  | _ => rfl

theorem insertedBy_other {thread other : Fin n} {world : World n}
    {event : ProcessFile.Event} (different : other ≠ thread) :
    insertedBy platform other world (.pass thread event) = none := by
  cases event with
  | insert executed now =>
      simp only [insertedBy, if_neg (Ne.symm different)]
  | _ => rfl

/-- Actions outside the passes leave files, tables and cache alone and queue
or pop watched paths at most. -/
theorem SourceInvariant.quiet {state after : Tracked (World n) (Action n)}
    {action : Action n}
    (invariant : SourceInvariant platform cfg origin state)
    (past : after.past = (state.now, action) :: state.past)
    (notPass : ∀ thread event, action ≠ .pass thread event)
    (notFinish : ∀ thread, action ≠ .finish thread)
    (fs : after.now.shared.fs = state.now.shared.fs)
    (db : after.now.shared.db = state.now.shared.db)
    (fpCache : after.now.shared.impl.fpCache =
      state.now.shared.impl.fpCache)
    (files : ∀ path ∈ after.now.shared.impl.files, WatchFile cfg path)
    (threads : ∀ thread pass, after.now.threads thread = some pass →
      state.now.threads thread = some pass ∨
        StageSound platform cfg origin pass.path pass.stage)
    (kept : ∀ thread pass, state.now.threads thread = some pass →
      after.now.threads thread = some pass) :
    SourceInvariant platform cfg origin after := by
  have silent : ∀ thread : Fin n,
      insertedBy platform thread state.now action = none := by
    intro thread
    cases action with
    | pass other event => exact (notPass other event rfl).elim
    | _ => rfl
  constructor
  · exact files
  · intro thread pass busy
    rcases threads thread pass busy with before | sound
    · exact invariant.passes thread pass before
    · exact sound
  · rw [fs]
    exact invariant.frame
  · rw [fpCache]
    exact invariant.cached
  · intro thread row opened
    rw [past, openRow_quiet (notFinish thread) (silent thread)] at opened
    obtain ⟨sound, stage, busy, archiving⟩ :=
      invariant.opened thread row opened
    rw [db, fs]
    exact ⟨sound, stage, kept thread _ busy, archiving⟩
  · rw [past, endedRows_quiet notFinish, db, fs]
    exact invariant.ended

theorem RowSound.mono {db next : Db} {row : ImportRow}
    (sound : RowSound platform cfg origin db row)
    (rows : ∀ row ∈ db.imports, row ∈ next.imports) :
    RowSound platform cfg origin next row :=
  ⟨sound.watch, rows row sound.member, sound.completed, sound.hash⟩

theorem insertedBy_some {thread : Fin n} {world : World n}
    {event : ProcessFile.Event} {row : ImportRow}
    (inserted : insertedBy platform thread world (.pass thread event) =
      some row) :
    ∃ path record now, event = .insert true now ∧
      world.threads thread = some ⟨path, .insert record⟩ ∧
      world.shared.db.Accepts platform.mariadb record ∧
      row = world.shared.db.importRow record now := by
  cases event with
  | insert executed now =>
      simp only [insertedBy, if_true] at inserted
      split at inserted
      · rename_i path record busy
        split at inserted
        · rename_i taken
          obtain ⟨rfl, accepted⟩ := taken
          cases inserted
          exact ⟨path, record, now, rfl, busy, accepted, rfl⟩
        · cases inserted
      · cases inserted
  | _ => cases inserted

section PassStep

variable {state : Tracked (World n) (Action n)} {thread : Fin n}
  {pass : Pass} {shared : Shared} {stage : ProcessFile.Stage}
  {event : ProcessFile.Event}

theorem ProcessFile.Step.watched_none {path other : Path}
    {before after : Shared} {stage stage' : ProcessFile.Stage}
    (step : ProcessFile.Step platform cfg path before stage event after
      stage')
    (succeeds : CallSucceeds platform path before stage event)
    (sound : StageSound platform cfg origin path stage)
    (otherWatch : WatchFile cfg other) (absent : before.fs other = none) :
    after.fs other = none := by
  rcases step.watched succeeds sound otherWatch with same |
    ⟨rfl, target, file, -, present, -⟩
  · rw [same]
    exact absent
  · rw [absent] at present
    cases present

theorem StageSound.importRow {path : Path} {db : Db} {record : ImportRecord}
    (sound : StageSound platform cfg origin path (.insert record))
    (accepted : db.Accepts platform.mariadb record) (date : String) :
    RowSound platform cfg origin
      (db.insertImport platform.mariadb record true date).1
      (db.importRow record date) := by
  obtain ⟨named, completed⟩ := sound.record record rfl
  have source : (db.importRow record date).sourcePath = path := named
  constructor
  · rw [source]
    exact sound.watch
  · rw [Db.insertImport_accepted accepted]
    exact List.mem_append_right _ (List.mem_singleton.mpr rfl)
  · exact completed
  · rw [source]
    exact sound.hash record.sourceHash rfl

/-- The pass that has inserted the row goes on to its archive move and its
end. -/
theorem archiving_step {row : ImportRow}
    (step : ProcessFile.Step platform cfg row.sourcePath state.now.shared
      stage event shared stage')
    (succeeds : CallSucceeds platform row.sourcePath state.now.shared stage
      event)
    (archiving : Archiving cfg state.now.shared.fs row stage) :
    Archiving cfg shared.fs row stage' := by
  rcases archiving with ⟨record, awaits, folder⟩ | ⟨atEnd, result⟩
  · cases step with
    | thumbnail => exact .inl ⟨record, awaits, folder⟩
    | archive call =>
        right
        refine ⟨.inl rfl, ?_⟩
        cases awaits
        have own : ProcessFile.archivePath cfg record.folderSchema
            row.sourcePath = ProcessFile.archivePath cfg
              (row.folderSchema.getD "") row.sourcePath := by
          rw [folder]
          rfl
        by_cases onto : ProcessFile.archivePath cfg record.folderSchema
            row.sourcePath = row.sourcePath
        · left
          unfold InPlace
          rw [← own]
          exact onto
        · right
          exact moveFile_source succeeds onto call
    | _ => cases awaits
  · rcases atEnd with rfl | rfl
    · cases step with
      | release => exact .inr ⟨.inr rfl, result⟩
    · exact (step.running rfl).elim

/-- A watched path keeps its bytes, or is moved away with them. -/
theorem SourceInvariant.frame_executed
    (invariant : SourceInvariant platform cfg origin state)
    (busy : state.now.threads thread = some pass)
    (step : ProcessFile.Step platform cfg pass.path state.now.shared
      pass.stage event shared stage)
    (succeeds : CallSucceeds platform pass.path state.now.shared pass.stage
      event) {path : Path} (watch : WatchFile cfg path) {bytes : Bytes}
    (present : shared.fs.bytesAt path = some bytes) :
    origin.bytesAt path = some bytes := by
  have sound := invariant.passes thread pass busy
  rcases step.watched succeeds sound watch with same |
    ⟨rfl, target, file, -, before, ⟨-, onto⟩ | ⟨-, gone⟩⟩
  · apply invariant.frame path watch bytes
    unfold Fs.bytesAt at present ⊢
    rw [← same]
    exact present
  · rw [onto] at present
    cases present
    apply invariant.frame pass.path watch
    simp [Fs.bytesAt, before]
  · simp [Fs.bytesAt, gone] at present

/-- A row that the stage inserts, or that was open before it, is on its way to
the archive. -/
theorem SourceInvariant.opened_executed
    {after : Tracked (World n) (Action n)}
    (invariant : SourceInvariant platform cfg origin state)
    (busy : state.now.threads thread = some pass)
    (step : ProcessFile.Step platform cfg pass.path state.now.shared
      pass.stage event shared stage)
    (succeeds : CallSucceeds platform pass.path state.now.shared pass.stage
      event)
    (now : after.now = (state.now.withShared shared).setThread thread
      (some ⟨pass.path, stage⟩))
    (past : after.past = (state.now, .pass thread event) :: state.past)
    {other : Fin n} {row : ImportRow}
    (opened : openRow platform other after.past = some row) :
    RowSound platform cfg origin shared.db row ∧
      ∃ stage, after.now.threads other = some ⟨row.sourcePath, stage⟩ ∧
        Archiving cfg shared.fs row stage := by
  have sound := invariant.passes thread pass busy
  have running : ∀ other : Fin n,
      (Action.pass thread event) ≠ .finish other := nofun
  rw [past] at opened
  by_cases same : other = thread
  · subst same
    cases inserted :
      insertedBy platform other state.now (.pass other event) with
    | some row' =>
        simp only [openRow, if_neg (running other), inserted,
          Option.some.injEq] at opened
        subst opened
        obtain ⟨path, record, date, rfl, atInsert, accepted, rfl⟩ :=
          insertedBy_some inserted
        rw [busy] at atInsert
        cases atInsert
        cases step with
        | insert =>
            refine ⟨sound.importRow accepted date,
              if cfg.genThumbJpeg = true then .thumbnail record
              else .archive record, ?_, ?_⟩
            · rw [now, World.setThread_same]
              simp only [Db.importRow, (sound.record record rfl).1]
            · left
              refine ⟨record, ?_, rfl⟩
              split <;> rfl
    | none =>
        rw [openRow_quiet (running other) inserted] at opened
        obtain ⟨rowSound, before, atStage, archiving⟩ :=
          invariant.opened other row opened
        rw [busy] at atStage
        cases atStage
        refine ⟨rowSound.mono step.imports, stage, ?_, ?_⟩
        · rw [now, World.setThread_same]
        · exact archiving_step step succeeds archiving
  · rw [openRow_quiet (running other) (insertedBy_other same)] at opened
    obtain ⟨rowSound, before, atStage, archiving⟩ :=
      invariant.opened other row opened
    refine ⟨rowSound.mono step.imports, before, ?_, ?_⟩
    · rw [now, World.setThread_other _ _ same]
      exact atStage
    · rcases archiving with awaits | ⟨atEnd, inPlace | gone⟩
      · exact .inl awaits
      · exact .inr ⟨atEnd, .inl inPlace⟩
      · exact .inr ⟨atEnd, .inr (step.watched_none succeeds sound
          rowSound.watch gone)⟩

/-- A stage of a successful pass keeps the invariant when it takes no ended
row's file away. -/
theorem SourceInvariant.executed
    {after : Tracked (World n) (Action n)}
    (invariant : SourceInvariant platform cfg origin state)
    (busy : state.now.threads thread = some pass)
    (step : ProcessFile.Step platform cfg pass.path state.now.shared
      pass.stage event shared stage)
    (succeeds : CallSucceeds platform pass.path state.now.shared pass.stage
      event)
    (stays : SourceStays platform cfg state (.pass thread event))
    (now : after.now = (state.now.withShared shared).setThread thread
      (some ⟨pass.path, stage⟩))
    (past : after.past = (state.now, .pass thread event) :: state.past) :
    SourceInvariant platform cfg origin after := by
  have sound := invariant.passes thread pass busy
  have shared' : after.now.shared = shared := by
    rw [now]
    rfl
  constructor
  · rw [shared', step.queue.1]
    exact invariant.queued
  · intro other otherPass otherBusy
    rw [now] at otherBusy
    by_cases same : other = thread
    · subst same
      rw [World.setThread_same] at otherBusy
      cases otherBusy
      constructor
      · exact sound.watch
      · intro srcHash holds
        exact step.sourceHash (invariant.frame pass.path sound.watch)
          (invariant.cached pass.path) sound.hash holds
      · intro dst holds
        exact step.output holds
      · intro record holds
        exact (step.inserting holds).1
    · rw [World.setThread_other _ _ same] at otherBusy
      exact invariant.passes other otherPass otherBusy
  · intro path watch bytes present
    rw [shared'] at present
    exact invariant.frame_executed busy step succeeds watch present
  · rw [shared']
    intro path entry found
    exact step.cached sound.hash invariant.cached found
  · intro other row opened
    rw [shared']
    exact invariant.opened_executed busy step succeeds now past opened
  · intro row member
    have running : ∀ other : Fin n,
        (Action.pass thread event) ≠ .finish other := nofun
    rw [past, endedRows_quiet running] at member
    obtain ⟨rowSound, present⟩ := invariant.ended row member
    rw [shared']
    refine ⟨rowSound.mono step.imports, ?_⟩
    rcases step.watched succeeds sound rowSound.watch with same |
      ⟨here, target, file, moves, -, ⟨-, onto⟩ | ⟨away, -⟩⟩
    · rw [same]
      exact present
    · intro gone
      rw [← here] at onto
      simp [Fs.bytesAt, gone] at onto
    · exact (away (stays pass busy target moves row member here)).elim

end PassStep

theorem SourceInvariant.finish {state after : Tracked (World n) (Action n)}
    {thread : Fin n} {path : Path}
    (invariant : SourceInvariant platform cfg origin state)
    (ended : state.now.threads thread = some ⟨path, .done⟩)
    (stays : SourceStays platform cfg state (.finish thread))
    (now : after.now = state.now.setThread thread none)
    (past : after.past = (state.now, .finish thread) :: state.past) :
    SourceInvariant platform cfg origin after := by
  have shared : after.now.shared = state.now.shared := by
    rw [now]
    rfl
  have before : ∀ other pass, after.now.threads other = some pass →
      state.now.threads other = some pass ∧ other ≠ thread := by
    intro other pass busy
    rw [now] at busy
    by_cases same : other = thread
    · subst same
      rw [World.setThread_same] at busy
      cases busy
    · rw [World.setThread_other _ _ same] at busy
      exact ⟨busy, same⟩
  constructor
  · rw [shared]
    exact invariant.queued
  · intro other pass busy
    exact invariant.passes other pass (before other pass busy).1
  · rw [shared]
    exact invariant.frame
  · rw [shared]
    exact invariant.cached
  · intro other row opened
    rw [past] at opened
    by_cases same : other = thread
    · subst same
      simp [openRow] at opened
    · have running : (Action.finish thread : Action n) ≠ .finish other := by
        intro equal
        cases equal
        exact same rfl
      rw [openRow_quiet running rfl] at opened
      obtain ⟨sound, stage, busy, archiving⟩ :=
        invariant.opened other row opened
      rw [shared]
      refine ⟨sound, stage, ?_, archiving⟩
      rw [now, World.setThread_other _ _ same]
      exact busy
  · intro row member
    rw [past] at member
    rw [shared]
    rcases List.mem_append.mp member with own | old
    · have opened := Option.mem_toList.mp own
      obtain ⟨sound, -⟩ := invariant.opened thread row opened
      have present := (stays row opened).2
      exact ⟨sound, Option.isSome_iff_ne_none.mp present⟩
    · exact invariant.ended row old

section Exactness

variable {state after : Tracked (World n) (Action n)} {action : Action n}

theorem scanEntry_queues {impl : Impl} {path other : Path} {date : Int}
    (member : other ∈ (impl.scanEntry path date).files) :
    other ∈ impl.files ∨ other = path := by
  rcases impl.scanEntry_cases path date with ⟨-, same⟩ | ⟨-, -, queued⟩
  · rw [same] at member
    exact .inl member
  · rw [queued] at member
    rcases List.mem_append.mp member with before | added
    · exact .inl before
    · exact .inr (List.mem_singleton.mp added)

/-- Undisturbed, a step that takes no ended row's file away keeps the
invariant. -/
theorem sourceInvariant_step
    (invariant : SourceInvariant platform cfg origin state)
    (undisturbed : Undisturbed platform state action)
    (stays : SourceStays platform cfg state action)
    (taken : track (step platform cfg) state action = some after) :
    SourceInvariant platform cfg origin after := by
  obtain ⟨stepTaken, past⟩ := track_eq_some_iff.mp taken
  have still : (∀ thread event, action ≠ .pass thread event) →
      (∀ thread, action ≠ .finish thread) →
      after.now.shared.fs = state.now.shared.fs →
      after.now.shared.db = state.now.shared.db →
      after.now.shared.impl.fpCache = state.now.shared.impl.fpCache →
      after.now.shared.impl.files = state.now.shared.impl.files →
      after.now.threads = state.now.threads →
      SourceInvariant platform cfg origin after := by
    intro notPass notFinish fs db fpCache files threads
    apply invariant.quiet past notPass notFinish fs db fpCache
    · rw [files]
      exact invariant.queued
    · rw [threads]
      exact fun _ _ => .inl
    · rw [threads]
      exact fun _ _ => id
  cases action with
  | advance ns =>
      have now := Option.some.inj stepTaken
      apply still nofun nofun <;> rw [← now] <;> rfl
  | setWall wall =>
      have now := Option.some.inj stepTaken
      apply still nofun nofun <;> rw [← now] <;> rfl
  | external path file => exact undisturbed.elim
  | beginScan =>
      obtain ⟨shared, threads⟩ := beginScan_cases stepTaken
      apply still nofun nofun _ _ _ _ threads <;> rw [shared]
  | endScan =>
      obtain ⟨shared, threads⟩ := endScan_cases stepTaken
      apply still nofun nofun _ _ _ _ threads <;> rw [shared]
  | cleanup =>
      obtain ⟨shared, threads⟩ := cleanup_cases stepTaken
      apply still nofun nofun _ _ _ _ threads <;> rw [shared] <;> rfl
  | scanFile name =>
      obtain ⟨date, file, -, -, bare, ⟨accepted, now⟩ | ⟨-, now⟩⟩ :=
        scanFile_cases stepTaken
      · have named : acceptedName name = true :=
          (Bool.and_eq_true_iff.mp accepted).1
        apply invariant.quiet past nofun nofun <;> rw [now]
        · rfl
        · rfl
        · exact Impl.scanEntry_fpCache _ _ _
        · intro path member
          rcases scanEntry_queues member with queued | rfl
          · exact invariant.queued path queued
          · exact ⟨name, bare, named, rfl⟩
        · exact fun _ _ => .inl
        · exact fun _ _ => id
      · apply still nofun nofun <;> rw [now]
  | pop thread =>
      obtain ⟨path, impl, idle, popped, now⟩ := pop_cases stepTaken
      obtain ⟨files, -, -, -, fpCache⟩ := Impl.popFile_cases popped
      have queued := invariant.queued
      rw [files] at queued
      apply invariant.quiet past nofun nofun <;> rw [now]
      · rfl
      · rfl
      · exact fpCache
      · exact fun other member =>
          queued other (List.mem_cons_of_mem _ member)
      · intro other pass busy
        by_cases same : other = thread
        · subst same
          rw [World.setThread_same] at busy
          cases busy
          exact .inr (stageSound_fingerprint
            (queued path List.mem_cons_self))
        · rw [World.setThread_other _ _ same] at busy
          exact .inl busy
      · intro other pass busy
        have different : other ≠ thread := by
          intro same
          rw [same, idle] at busy
          cases busy
        exact (World.setThread_other _ _ different).trans busy
  | pass thread event =>
      obtain ⟨pass, shared, stage, busy, passStep, now⟩ :=
        pass_cases stepTaken
      have succeeds : CallSucceeds platform pass.path state.now.shared
          pass.stage event := by
        simpa only [Undisturbed, busy] using undisturbed
      exact invariant.executed busy passStep succeeds stays now past
  | finish thread =>
      obtain ⟨path, ended, now⟩ := finish_cases stepTaken
      exact invariant.finish ended stays now past

/-- In every state of the invariant the ended rows find their sources. -/
theorem SourceInvariant.found
    (invariant : SourceInvariant platform cfg origin state) :
    SourcesFound platform state := by
  intro row _ _ ended
  obtain ⟨sound, present⟩ := invariant.ended row ended
  obtain ⟨file, holds⟩ := Option.ne_none_iff_exists'.mp present
  refine ⟨file, holds, ?_⟩
  obtain ⟨bytes, original, digest⟩ := sound.hash
  have same := invariant.frame row.sourcePath sound.watch file.bytes
    (by simp [Fs.bytesAt, holds])
  rw [original] at same
  cases same
  exact digest

/-- A step that takes the file of an ended row away loses its source. -/
theorem sourceStays_of_found
    (invariant : SourceInvariant platform cfg origin state)
    (undisturbed : Undisturbed platform state action)
    (taken : track (step platform cfg) state action = some after)
    (found : SourcesFound platform after) :
    SourceStays platform cfg state action := by
  obtain ⟨stepTaken, past⟩ := track_eq_some_iff.mp taken
  cases action with
  | finish thread =>
      intro row opened
      obtain ⟨sound, stage, busy, archiving⟩ :=
        invariant.opened thread row opened
      obtain ⟨path, ended, now⟩ := finish_cases stepTaken
      have shared : after.now.shared = state.now.shared := by
        rw [now]
        rfl
      have member : row ∈ endedRows platform after.past := by
        rw [past]
        exact List.mem_append_left _ (Option.mem_toList.mpr opened)
      obtain ⟨file, holds, -⟩ := found row
        (by rw [shared]; exact sound.member) sound.completed member
      rw [shared] at holds
      rw [ended] at busy
      cases busy
      refine ⟨?_, by rw [holds]; rfl⟩
      rcases archiving with ⟨record, awaits, -⟩ | ⟨-, inPlace | gone⟩
      · cases awaits
      · exact inPlace
      · rw [holds] at gone
        cases gone
  | pass thread event =>
      intro pass busy target moves row member here
      obtain ⟨pass', shared, stage, busy', passStep, now⟩ :=
        pass_cases stepTaken
      have same : pass' = pass := by
        rw [busy'] at busy
        exact Option.some.inj busy
      subst same
      have succeeds : CallSucceeds platform pass'.path state.now.shared
          pass'.stage event := by
        simpa only [Undisturbed, busy'] using undisturbed
      obtain ⟨sound, -⟩ := invariant.ended row member
      have still : row ∈ endedRows platform after.past := by
        rw [past]
        exact member
      obtain ⟨file, holds, -⟩ := found row
        (by rw [now]; exact passStep.imports row sound.member)
        sound.completed still
      have present : shared.fs pass'.path = some file := by
        rw [now, here] at holds
        exact holds
      by_contra away
      generalize pass'.stage = start at passStep moves succeeds
      cases passStep with
      | moveDuplicate call =>
          cases moves
          have gone := moveFile_source succeeds away call
          cases gone.symm.trans present
      | archive call =>
          cases moves
          have gone := moveFile_source succeeds away call
          cases gone.symm.trans present
      | _ => cases moves
  | _ => trivial

end Exactness

/-- Sources over whole runs, for any directories, names, folders, tables and
interleavings: while every call succeeds and nothing changes from outside,
every completed row of an ended pass finds what was hashed at its path exactly
when passes leave their files in place. -/
theorem sourcesFound_run_iff (platform : Platform) (cfg : Config)
    (clock wall : Int) (fs : Fs) (db : Db) {actions : List (Action n)}
    (undisturbed : Along (track (step platform cfg))
      (Undisturbed platform)
      (.start (World.initial (n := n) clock wall fs db)) actions) :
    Visits (track (step platform cfg)) (SourcesFound platform)
        (.start (World.initial clock wall fs db)) actions ↔
      Along (track (step platform cfg)) (SourceStays platform cfg)
        (.start (World.initial clock wall fs db)) actions := by
  refine visits_iff_along_of_assumed (SourceInvariant platform cfg fs)
    ?_ ?_ ?_ (sourceInvariant_start clock wall fs db) undisturbed
  · intro state invariant
    exact invariant.found
  · intro state action after invariant calm stays taken
    exact sourceInvariant_step invariant calm stays taken
  · intro state action after invariant calm taken found
    exact sourceStays_of_found invariant calm taken found

def photographImported : List (Action 1) :=
  scanning "DSC_0001.NEF" ++ importing 0 "2024-05-01" ⟨[7], 0⟩ true

/-- The archive holds `watch_dir` as one of its folders. -/
def archivedInPlace : Config :=
  { watchDir := "/archive/in", folderSchema := "in" }

theorem sourcesFound_archivedInPlace :
    Visits (track (step photographs archivedInPlace))
      (SourcesFound photographs)
      (.start (World.initial (n := 1) 0 (60 * nsPerSecond)
        (fun path =>
          if path = "/archive/in/DSC_0001.NEF" then some ⟨[1], 0⟩
          else none) {})) photographImported :=
  (sourcesFound_run_iff photographs archivedInPlace 0 (60 * nsPerSecond) _
    {} (by decide +kernel)).mpr (by decide +kernel)

/-- With the default directories nothing is left at the path of the row. -/
theorem source_archived_away :
    Along (track (step photographs {})) (Undisturbed photographs)
      (.start (onePhotograph 1)) photographImported ∧
    ∃ state,
      run (track (step photographs {})) (.start (onePhotograph 1))
        photographImported = some state ∧
      (∃ row ∈ state.now.shared.db.imports,
        row.sourcePath = "/watch/DSC_0001.NEF" ∧
        state.now.shared.fs row.sourcePath = none) ∧
      ¬SourcesFound photographs state := by
  refine ⟨by decide +kernel, ?_⟩
  have lost : ∃ state,
      run (track (step photographs {})) (.start (onePhotograph 1))
        photographImported = some state ∧
      ∃ row ∈ state.now.shared.db.imports,
        row.sourcePath = "/watch/DSC_0001.NEF" ∧ row.status = .completed ∧
        row ∈ endedRows photographs state.past ∧
        state.now.shared.fs row.sourcePath = none :=
    exists_run_of_decide (by decide +kernel)
  obtain ⟨state, reached, row, member, named, completed, ended, gone⟩ := lost
  refine ⟨state, reached, ⟨row, member, named, gone⟩, ?_⟩
  intro found
  obtain ⟨file, holds, -⟩ := found row member completed ended
  rw [gone] at holds
  cases holds

end Runs

end Worker

end RawImport
