import Mathlib.Data.List.Nodup
import RawImport.Library.Operations
import RawImport.Worker.DngNames
import RawImport.Worker.Machine

/-!
# Recorded hashes

`output_hash` should be the digest of the bytes at `output_path` between
operations.  Imports, reconversions and re-embeds keep it so; a rotation
rewrites the file and leaves the recorded hash, so it keeps the agreement
exactly when the rewritten file has the old digest.
-/

namespace RawImport

open PathText Transition Worker Worker.ProcessFile

namespace Library

/-- The recorded hash of the row is the digest of the bytes at its path. -/
def Agrees (platform : Platform) (fs : Fs) (row : ImportRow) : Prop :=
  ∃ bytes, fs.bytesAt row.outputPath = some bytes ∧
    row.outputHash = platform.digest.sha256 bytes

instance (platform : Platform) (fs : Fs) (row : ImportRow) :
    Decidable (Agrees platform fs row) :=
  match holds : fs.bytesAt row.outputPath with
  | some bytes =>
      decidable_of_iff (row.outputHash = platform.digest.sha256 bytes)
        (by simp [Agrees, holds])
  | none => .isFalse (by simp [Agrees, holds])

def HashesAgree (platform : Platform) (library : Library) : Prop :=
  ∀ row ∈ library.shared.db.imports,
    Agrees platform library.shared.fs row

instance (platform : Platform) (library : Library) :
    Decidable (HashesAgree platform library) :=
  inferInstanceAs (Decidable (∀ row ∈ library.shared.db.imports, _))

/-- A path that a pass computes from an allocated number. -/
def Numbered (cfg : Config) (db : Db) (path : Path) : Prop :=
  ∃ number folder, number < db.nextSequence ∧ number < 2 ^ 64 ∧
    path = outputPath cfg folder (Db.sequenceName (toInt64 number))

/-- The rows agree with their files, and no two rows share a file or a
key. -/
structure Consistent (platform : Platform) (cfg : Config) (fs : Fs)
    (db : Db) : Prop where
  agrees : ∀ row ∈ db.imports, Agrees platform fs row
  numbered : ∀ row ∈ db.imports, Numbered cfg db row.outputPath
  separate : (db.imports.map fun row => filename row.outputPath).Nodup
  keys : (db.imports.map ImportRow.id).Nodup
  below : ∀ row ∈ db.imports, row.id < db.nextImport

/-- A numbered path that no row has yet. -/
structure Fresh (cfg : Config) (db : Db) (path : Path) : Prop where
  numbered : Numbered cfg db path
  unused : ∀ row ∈ db.imports, filename row.outputPath ≠ filename path

section Consistency

variable {platform : Platform} {cfg : Config} {fs next : Fs} {db after : Db}

theorem Numbered.mono {path : Path} (numbered : Numbered cfg db path)
    (grows : db.nextSequence ≤ after.nextSequence) :
    Numbered cfg after path := by
  obtain ⟨number, folder, allocated, bounded, text⟩ := numbered
  exact ⟨number, folder, Nat.lt_of_lt_of_le allocated grows, bounded, text⟩

theorem Consistent.row_eq (consistent : Consistent platform cfg fs db)
    {row other : ImportRow} (member : row ∈ db.imports)
    (otherMember : other ∈ db.imports)
    (same : filename row.outputPath = filename other.outputPath) :
    row = other :=
  List.inj_on_of_nodup_map consistent.separate member otherMember same

theorem Consistent.row_eq_of_id (consistent : Consistent platform cfg fs db)
    {row other : ImportRow} (member : row ∈ db.imports)
    (otherMember : other ∈ db.imports) (same : row.id = other.id) :
    row = other :=
  List.inj_on_of_nodup_map consistent.keys member otherMember same

/-- What keeps keys, paths and counters and leaves every row in agreement
keeps consistency. -/
theorem Consistent.rewrite (consistent : Consistent platform cfg fs db)
    {change : ImportRow → ImportRow}
    (rows : after.imports = db.imports.map change)
    (key : ∀ row, (change row).id = row.id)
    (path : ∀ row, (change row).outputPath = row.outputPath)
    (grows : db.nextSequence ≤ after.nextSequence)
    (counter : after.nextImport = db.nextImport)
    (agrees : ∀ row ∈ db.imports, Agrees platform next (change row)) :
    Consistent platform cfg next after := by
  refine ⟨?_, ?_, ?_, ?_, ?_⟩
  · rw [rows]
    intro changed member
    obtain ⟨row, present, rfl⟩ := List.mem_map.mp member
    exact agrees row present
  · rw [rows]
    intro changed member
    obtain ⟨row, present, rfl⟩ := List.mem_map.mp member
    rw [path]
    exact (consistent.numbered row present).mono grows
  · rw [rows, List.map_map]
    have same : ((fun row : ImportRow => filename row.outputPath) ∘
        change) = fun row => filename row.outputPath := by
      funext row
      simp [path]
    rw [same]
    exact consistent.separate
  · rw [rows, List.map_map]
    have same : ImportRow.id ∘ change = ImportRow.id := by
      funext row
      exact key row
    rw [same]
    exact consistent.keys
  · rw [rows, counter]
    intro changed member
    obtain ⟨row, present, rfl⟩ := List.mem_map.mp member
    rw [key]
    exact consistent.below row present

/-- What leaves the rows and their files alone keeps consistency. -/
theorem Consistent.frame (consistent : Consistent platform cfg fs db)
    (rows : after.imports = db.imports)
    (grows : db.nextSequence ≤ after.nextSequence)
    (counter : after.nextImport = db.nextImport)
    (files : ∀ row ∈ db.imports,
      next row.outputPath = fs row.outputPath) :
    Consistent platform cfg next after := by
  refine consistent.rewrite (by simp [rows]) (fun _ => rfl) (fun _ => rfl) grows counter ?_
  intro row member
  rw [Agrees, Fs.bytesAt, files row member]
  exact consistent.agrees row member

theorem Consistent.write (consistent : Consistent platform cfg fs db)
    {target : Path} (file : File)
    (away : ∀ row ∈ db.imports, row.outputPath ≠ target) :
    Consistent platform cfg (fs.write target file) db :=
  consistent.frame rfl (Nat.le_refl _) rfl fun row member =>
    Fs.write_other fs file (away row member)

theorem Consistent.produce (consistent : Consistent platform cfg fs db)
    {target : Path} (output : Option File)
    (away : ∀ row ∈ db.imports, row.outputPath ≠ target) :
    Consistent platform cfg (produce fs target output) db := by
  cases output with
  | none => exact consistent
  | some file => exact consistent.write file away

theorem Consistent.move (consistent : Consistent platform cfg fs db)
    {source target : Path} {outcome : MoveOutcome} {moved : Bool}
    (call : moveFile fs source target outcome = some (next, moved))
    (notSource : ∀ row ∈ db.imports, row.outputPath ≠ source)
    (notTarget : ∀ row ∈ db.imports, row.outputPath ≠ target) :
    Consistent platform cfg next db :=
  consistent.frame rfl (Nat.le_refl _) rfl fun row member =>
    moveFile_other (notSource row member) (notTarget row member) call

theorem Consistent.away (consistent : Consistent platform cfg fs db)
    {target : Path}
    (unnumbered : ∀ folder id,
      target ≠ outputPath cfg folder (Db.sequenceName id)) :
    ∀ row ∈ db.imports, row.outputPath ≠ target := by
  intro row member same
  obtain ⟨number, folder, -, -, text⟩ := consistent.numbered row member
  exact unnumbered folder (toInt64 number) (same ▸ text)

theorem Fresh.away {path : Path} (fresh : Fresh cfg db path) :
    ∀ row ∈ db.imports, row.outputPath ≠ path := by
  intro row member same
  exact fresh.unused row member (by rw [same])

theorem Consistent.fresh (consistent : Consistent platform cfg fs db)
    {number : Nat} (folder : String)
    (unallocated : db.nextSequence ≤ number) (bounded : number < 2 ^ 64)
    (rows : after.imports = db.imports)
    (counter : after.nextSequence = number + 1) :
    Fresh cfg after
      (outputPath cfg folder (Db.sequenceName (toInt64 number))) := by
  refine ⟨⟨number, folder, by omega, bounded, rfl⟩, ?_⟩
  rw [rows]
  intro row member same
  obtain ⟨old, folder', allocated, oldBounded, text⟩ :=
    consistent.numbered row member
  rw [text] at same
  have equal := toInt64_injective oldBounded bounded
    (outputPath_number same)
  omega

theorem Consistent.insertImport
    (consistent : Consistent platform cfg fs db) {record : ImportRecord}
    (fresh : Fresh cfg db record.outputPath) {bytes : Bytes}
    (holds : fs.bytesAt record.outputPath = some bytes)
    (hashed : record.outputHash = platform.digest.sha256 bytes)
    (executed : Bool) (now : String) :
    Consistent platform cfg fs
      (db.insertImport platform.mariadb record executed now).1 := by
  rcases Db.insertImport_cases platform.mariadb db record executed now with
    ⟨-, -, inserted⟩ | ⟨-, refused⟩
  · rw [inserted]
    refine ⟨?_, ?_, ?_, ?_, ?_⟩
    · intro row member
      rcases List.mem_append.mp member with old | new
      · exact consistent.agrees row old
      · rw [List.mem_singleton.mp new]
        exact ⟨bytes, holds, hashed⟩
    · intro row member
      rcases List.mem_append.mp member with old | new
      · exact consistent.numbered row old
      · rw [List.mem_singleton.mp new]
        exact fresh.numbered
    · rw [List.map_append, List.nodup_append]
      refine ⟨consistent.separate, List.nodup_singleton _, ?_⟩
      intro name old name' new same
      obtain ⟨row, member, rfl⟩ := List.mem_map.mp old
      rw [List.mem_singleton.mp new] at same
      exact fresh.unused row member same
    · rw [List.map_append, List.nodup_append]
      refine ⟨consistent.keys, List.nodup_singleton _, ?_⟩
      intro key old key' new same
      obtain ⟨row, member, rfl⟩ := List.mem_map.mp old
      rw [List.mem_singleton.mp new] at same
      have below := consistent.below row member
      simp only [Db.importRow] at same
      omega
    · intro row member
      rcases List.mem_append.mp member with old | new
      · exact Nat.lt_succ_of_lt (consistent.below row old)
      · rw [List.mem_singleton.mp new]
        exact Nat.lt_succ_self _
  · rw [refused]
    exact consistent

/-- Rewriting the file of a row and its recorded hash together. -/
theorem Consistent.rehash (consistent : Consistent platform cfg fs db)
    {row : ImportRow} (member : row ∈ db.imports) (file : File) :
    Consistent platform cfg (fs.write row.outputPath file)
      (db.updateOutputHash row.id (platform.digest.sha256 file.bytes)
        true) := by
  have fits : (platform.digest.sha256 file.bytes).length ≤ 64 :=
    Nat.le_of_eq (platform.digest.length_sha256 file.bytes)
  unfold Db.updateOutputHash
  rw [if_pos ⟨rfl, fits⟩]
  refine consistent.rewrite rfl ?_ ?_ (Nat.le_refl _) rfl ?_
  · intro other
    split <;> rfl
  · intro other
    split <;> rfl
  · intro other present
    by_cases updated : (other.id : Int) = row.id
    · have sameRow : other = row :=
        consistent.row_eq_of_id present member (by omega)
      rw [if_pos updated, sameRow]
      exact ⟨file.bytes, by simp [Fs.bytesAt], rfl⟩
    · rw [if_neg updated]
      obtain ⟨bytes, holds, hashed⟩ := consistent.agrees other present
      have away : other.outputPath ≠ row.outputPath := by
        intro same
        have sameRow := consistent.row_eq present member (by rw [same])
        exact updated (by rw [sameRow])
      refine ⟨bytes, ?_, hashed⟩
      rw [Fs.bytesAt, Fs.write_other _ _ away]
      exact holds

/-- Rewriting a file under its recorded hash keeps the agreement when the
digest stays. -/
theorem Consistent.orient (consistent : Consistent platform cfg fs db)
    (importId orientation : Int) (executed : Bool) {target : Path}
    (output : Option File)
    (unseen : ∀ file, output = some file →
      ∀ row ∈ db.imports, row.outputPath = target →
        ∀ old, fs.bytesAt target = some old →
          platform.digest.sha256 file.bytes = platform.digest.sha256 old) :
    Consistent platform cfg (ProcessFile.produce fs target output)
      (db.updateOrientation importId orientation executed) := by
  have agrees : ∀ row ∈ db.imports,
      Agrees platform (ProcessFile.produce fs target output) row := by
    intro row present
    cases output with
    | none => exact consistent.agrees row present
    | some file =>
        obtain ⟨bytes, holds, hashed⟩ := consistent.agrees row present
        by_cases here : row.outputPath = target
        · refine ⟨file.bytes, ?_, ?_⟩
          · simp [here, ProcessFile.produce, Fs.bytesAt]
          · rw [hashed,
              unseen file rfl row present here bytes (here ▸ holds)]
        · refine ⟨bytes, ?_, hashed⟩
          rw [ProcessFile.produce, Fs.bytesAt, Fs.write_other _ _ here]
          exact holds
  unfold Db.updateOrientation
  split
  · refine consistent.rewrite rfl ?_ ?_ (Nat.le_refl _) rfl ?_
    · intro row
      split <;> rfl
    · intro row
      split <;> rfl
    · intro row present
      split
      · exact agrees row present
      · exact agrees row present
  · refine consistent.rewrite (List.map_id _).symm (fun _ => rfl) (fun _ => rfl) (Nat.le_refl _) rfl agrees

end Consistency

/-! ## Imports -/

/-- The tools of the stage leave what they promise. -/
def Completes : Event → Prop
  | .convert converted output => converted = true → output.isSome = true
  | .hash opened => opened = true
  | _ => True

instance (event : Event) : Decidable (Completes event) := by
  cases event <;> unfold Completes <;> infer_instance

/-- What a pass has established for its own row at each stage. -/
def Ready (platform : Platform) (cfg : Config) (fs : Fs) (db : Db) :
    Stage → Prop
  | .convert job => Fresh cfg db job.dst ∧ Bare job.seqName
  | .clearConverted job =>
      (Fresh cfg db job.dst ∧ Bare job.seqName) ∧
        ∃ bytes, fs.bytesAt job.dst = some bytes
  | .hashOutput job =>
      (Fresh cfg db job.dst ∧ Bare job.seqName) ∧
        ∃ bytes, fs.bytesAt job.dst = some bytes
  | .insert record =>
      (Fresh cfg db record.outputPath ∧ Bare record.sequenceName) ∧
        ∃ bytes, fs.bytesAt record.outputPath = some bytes ∧
          record.outputHash = platform.digest.sha256 bytes
  | .thumbnail record => Bare record.sequenceName
  | _ => True

section Imports

variable {platform : Platform} {cfg : Config} {path : Path}
  {shared after : Shared} {stage stage' : Stage} {event : Event}

theorem ready_hashed (fs : Fs) (db : Db) (srcHash : String) :
    Ready platform cfg fs db (hashed srcHash) := by
  unfold hashed
  split <;> trivial

theorem ready_after (fs : Fs) (db : Db) (failure : Failure) :
    Ready platform cfg fs db failure.after := by
  cases failure <;> trivial

/-- A stage of a pass on a raw file keeps the library consistent. -/
theorem consistent_stage
    (step : Step platform cfg path shared stage event after stage')
    (accepted : acceptedName (filename path) = true)
    (completes : Completes event)
    (consistent : Consistent platform cfg shared.fs shared.db)
    (ready : Ready platform cfg shared.fs shared.db stage) :
    Consistent platform cfg after.fs after.db ∧
      Ready platform cfg after.fs after.db stage' := by
  have notSource : ∀ row ∈ shared.db.imports, row.outputPath ≠ path :=
    consistent.away fun folder id =>
      ne_outputPath cfg folder id (extension_of_accepted accepted)
  cases step with
  | cacheHit => exact ⟨consistent, ready_hashed _ _ _⟩
  | hashOnly => exact ⟨consistent, ready_hashed _ _ _⟩
  | cacheStore => exact ⟨consistent, ready_hashed _ _ _⟩
  | moveDuplicate call =>
      exact ⟨consistent.move call notSource (consistent.away fun folder id =>
        moved_ne_outputPath cfg folder id _ accepted), trivial⟩
  | archive call =>
      exact ⟨consistent.move call notSource (consistent.away fun folder id =>
        moved_ne_outputPath cfg folder id _ accepted), trivial⟩
  | moveDead call =>
      refine ⟨consistent.move call notSource
        (consistent.away fun folder id =>
          deadPath_ne_outputPath cfg folder id path _), ?_⟩
      split
      · trivial
      · exact ready_after _ _ _
  | noSequence failed =>
      refine ⟨consistent.frame (by simp) ?_ (by simp) fun _ _ => rfl,
        trivial⟩
      exact Db.nextSequence_le_allocateSequence platform.mariadb shared.db _
  | allocate allocated =>
      rename_i srcHash ex outcome
      rcases Db.allocateSequence_cases platform.mariadb shared.db
        outcome with
        ⟨number, unallocated, bounded, counter, -, names⟩ | ⟨-, names⟩
      · refine ⟨consistent.frame (by simp) ?_ (by simp) fun _ _ => rfl,
          ?_, ?_⟩
        · exact Db.nextSequence_le_allocateSequence platform.mariadb
            shared.db _
        · rw [names]
          exact consistent.fresh _ unallocated bounded (by simp) counter
        · rw [names]
          exact Db.bare_sequenceName _
      · rw [names] at allocated
        exact (allocated rfl).elim
  | converted =>
      rename_i job output
      refine ⟨consistent.produce output ready.1.away, ready, ?_⟩
      obtain ⟨file, rfl⟩ := Option.isSome_iff_exists.mp (completes rfl)
      exact ⟨file.bytes, by simp [produce, Fs.bytesAt]⟩
  | conversionFailed =>
      exact ⟨consistent.produce _ ready.1.away, trivial⟩
  | clearConverted => exact ⟨consistent, ready⟩
  | hashOutput =>
      rename_i job opened
      obtain ⟨own, bytes, holds⟩ := ready
      refine ⟨consistent, own, bytes, holds, ?_⟩
      cases completes
      obtain ⟨file, present, rfl⟩ := Option.map_eq_some_iff.mp holds
      simp [record, sha256File, present]
  | insert =>
      rename_i record executed now
      obtain ⟨⟨fresh, bare⟩, bytes, holds, computed⟩ := ready
      refine ⟨consistent.insertImport fresh holds computed executed now, ?_⟩
      split
      · exact bare
      · trivial
  | thumbnail =>
      exact ⟨consistent.produce _ (consistent.away fun folder id =>
        thumbnailPath_ne_outputPath cfg folder _ id ready), trivial⟩
  | countFailure =>
      refine ⟨consistent, ?_⟩
      split
      · trivial
      · exact ready_after _ _ _
  | alert =>
      refine ⟨consistent.frame (by simp) (by simp) (by simp)
        fun _ _ => rfl, ready_after _ _ _⟩
  | _ => exact ⟨consistent, trivial⟩

theorem consistent_pass {events : List Event}
    (accepted : acceptedName (filename path) = true)
    (completes : ∀ event ∈ events, Completes event)
    (consistent : Consistent platform cfg shared.fs shared.db)
    (ready : Ready platform cfg shared.fs shared.db stage)
    (result : run (passStep platform cfg path) (shared, stage) events =
      some (after, stage')) :
    Consistent platform cfg after.fs after.db := by
  induction events generalizing shared stage with
  | nil =>
      cases result
      exact consistent
  | cons event events ih =>
      obtain ⟨⟨middle, middleStage⟩, taken, rest⟩ :=
        run_cons_eq_some_iff.mp result
      obtain ⟨kept, readyNext⟩ := consistent_stage (step_of_next taken)
        accepted (completes event List.mem_cons_self) consistent ready
      exact ih (fun event member =>
        completes event (List.mem_cons_of_mem _ member)) kept readyNext rest

end Imports

/-! ## Rewrites of registered files -/

section Rewrites

variable {platform : Platform} {cfg : Config} {shared : Shared}

/-- The server finds the row of a registered path and no other. -/
theorem found_by_outputPath {fs : Fs} {db : Db} {row : ImportRow}
    (consistent : Consistent platform cfg fs db)
    (member : row ∈ db.imports) :
    db.getImportByOutputPath platform.mariadb row.outputPath true =
      some row := by
  unfold Db.getImportByOutputPath
  rw [if_pos rfl]
  cases found : db.imports.find? fun other =>
      platform.mariadb.same other.outputPath row.outputPath with
  | none =>
      have unmatched := List.find?_eq_none.mp found row member
      exact (unmatched (platform.mariadb.same_refl _)).elim
  | some other =>
      have otherMember := List.mem_of_find?_eq_some found
      have matching : platform.mariadb.same other.outputPath
          row.outputPath = true := by
        simpa using List.find?_some found
      obtain ⟨number, folder, -, -, text⟩ :=
        consistent.numbered other otherMember
      obtain ⟨number', folder', -, -, text'⟩ :=
        consistent.numbered row member
      rw [text, text'] at matching
      have equal := platform.mariadb.same_numbered _ _ _ _ matching
      have names : filename other.outputPath = filename row.outputPath := by
        rw [text, text', filename_outputPath, filename_outputPath, equal]
      rw [consistent.row_eq otherMember member names]

theorem nonempty_of_numbered {db : Db} {path : Path}
    (numbered : Numbered cfg db path) : path ≠ "" := by
  rintro rfl
  obtain ⟨number, folder, -, -, text⟩ := numbered
  have letters := congrArg String.toList text
  simp [outputPath, String.toList_append] at letters

theorem Consistent.reconvert
    (consistent : Consistent platform cfg shared.fs shared.db)
    (job : ReconversionJob) {call : ReconvertCall}
    (converted : call.converted = true) (output : call.output.isSome = true)
    (opened : call.opened = true) (hashUpdated : call.hashUpdated = true) :
    Consistent platform cfg (reconvert platform shared job call).fs
      (reconvert platform shared job call).db := by
  obtain ⟨file, output⟩ := Option.isSome_iff_exists.mp output
  unfold Worker.reconvert
  split
  · exact consistent
  · rename_i row found
    have member : row ∈ shared.db.imports := Db.mem_of_getImportById found
    by_cases engine : call.engine = true
    · have rehashed := consistent.rehash member file
      simp only [engine, converted, if_true, output, opened, hashUpdated]
      have hash : sha256File platform.digest
          (shared.fs.write row.outputPath file) row.outputPath true =
          platform.digest.sha256 file.bytes := by
        simp [sha256File]
      simp only [ProcessFile.produce, hash]
      exact rehashed.frame (by simp) (by simp) (by simp) fun _ _ => rfl
    · simp only [engine, Bool.false_eq_true, if_false]
      exact consistent

theorem Consistent.reembed
    (consistent : Consistent platform cfg shared.fs shared.db)
    {row : ImportRow} (member : row ∈ shared.db.imports) (file : File)
    {call : Api.PreviewCall} (found : call.found = true)
    (opened : call.opened = true) (hashUpdated : call.hashUpdated = true) :
    Consistent platform cfg
      (Api.previewUpdated platform
        { shared with fs := shared.fs.write row.outputPath file }
        row.outputPath call).1.fs
      (Api.previewUpdated platform
        { shared with fs := shared.fs.write row.outputPath file }
        row.outputPath call).1.db := by
  have named := nonempty_of_numbered (consistent.numbered row member)
  have hash : sha256File platform.digest
      (shared.fs.write row.outputPath file) row.outputPath true =
      platform.digest.sha256 file.bytes := by
    simp [sha256File]
  have rehashed := consistent.rehash member file
  simp only [Api.previewUpdated, if_neg named, found,
    found_by_outputPath consistent member, opened, hash,
    if_neg (platform.digest.sha256_ne_empty file.bytes), hashUpdated]
  exact rehashed.frame (by simp) (by simp) (by simp) fun _ _ => rfl

/-- A rotation that rewrites a registered file leaves its digest. -/
def Unseen (platform : Platform) (shared : Shared)
    (rot : Rotation.PendingRot) (call : Rotation.RotateCall) : Prop :=
  ∀ file, call.acquired = true → call.output = some file →
    ∀ row ∈ shared.db.imports, row.outputPath = rot.dngPath →
      ∀ old, shared.fs.bytesAt rot.dngPath = some old →
        platform.digest.sha256 file.bytes = platform.digest.sha256 old

theorem Consistent.dispatch
    (consistent : Consistent platform cfg shared.fs shared.db)
    (importId : Int) {rot : Rotation.PendingRot}
    {call : Rotation.RotateCall} (success : call.succeeded = true)
    (unseen : Unseen platform shared rot call) :
    Consistent platform cfg
      (Rotation.dispatch shared importId rot call).fs
      (Rotation.dispatch shared importId rot call).db := by
  unfold Rotation.dispatch Rotation.rotate
  split
  · rename_i acquired
    exact consistent.orient importId rot.orientation call.updated
      call.output fun file output => unseen file acquired output
  · exact consistent

theorem unseen_of_agrees
    (consistent : Consistent platform cfg shared.fs shared.db)
    (importId : Int) {rot : Rotation.PendingRot}
    {call : Rotation.RotateCall} (success : call.succeeded = true)
    (agrees : ∀ row ∈ (Rotation.dispatch shared importId rot
        call).db.imports,
      Agrees platform (Rotation.dispatch shared importId rot call).fs row) :
    Unseen platform shared rot call := by
  intro file acquired output row member here old holds
  obtain ⟨bytes, present, hashed⟩ := consistent.agrees row member
  rw [here, holds] at present
  cases present
  have rotated : ∃ changed ∈
      (Rotation.dispatch shared importId rot call).db.imports,
        changed.outputPath = rot.dngPath ∧
          changed.outputHash = row.outputHash := by
    unfold Rotation.dispatch Rotation.rotate
    rw [if_pos acquired, if_pos success]
    unfold Db.updateOrientation
    split
    · refine ⟨_, List.mem_map_of_mem member, ?_⟩
      split <;> exact ⟨here, rfl⟩
    · exact ⟨row, member, here, rfl⟩
  obtain ⟨changed, changedMember, samePath, sameHash⟩ := rotated
  obtain ⟨new, newHolds, recorded⟩ := agrees changed changedMember
  have written : (Rotation.dispatch shared importId rot call).fs.bytesAt
      rot.dngPath = some file.bytes := by
    unfold Rotation.dispatch Rotation.rotate
    rw [if_pos acquired, output]
    simp [produce, Fs.bytesAt]
  rw [samePath, written] at newHolds
  cases newHolds
  rw [← recorded, sameHash, hashed]

end Rewrites

/-! ## Runs -/

/-- The external tools and the statements of the operation succeed. -/
def Succeeds (_ : Library) : Operation → Prop
  | .importFile _ events => ∀ event ∈ events, Completes event
  | .reconvert _ call =>
      call.converted = true ∧ call.output.isSome = true ∧
        call.opened = true ∧ call.hashUpdated = true
  | .dispatch _ call => call.succeeded = true
  | .drain _ call => call.succeeded = true
  | .reembed _ _ call =>
      call.found = true ∧ call.opened = true ∧ call.hashUpdated = true
  | _ => True

instance (library : Library) (operation : Operation) :
    Decidable (Succeeds library operation) := by
  cases operation <;> unfold Succeeds <;> infer_instance

/-- The operation is no rotation, or one that its file's digest does not
show. -/
def RotationUnseen (platform : Platform) (library : Library) :
    Operation → Prop
  | .dispatch importId call =>
      ∀ rot, library.pending importId = some rot →
        Unseen platform library.shared rot call
  | .drain importId call =>
      ∀ rot, library.remaining importId = some rot →
        Unseen platform library.shared rot call
  | _ => True

section Runs

variable {platform : Platform} {cfg : Config} {library after : Library}
  {operation : Operation}

theorem consistent_step
    (consistent : Consistent platform cfg library.shared.fs
      library.shared.db)
    (succeeds : Succeeds library operation)
    (unseen : RotationUnseen platform library operation)
    (taken : step platform cfg library operation = some after) :
    Consistent platform cfg after.shared.fs after.shared.db := by
  cases operation with
  | arrive path file =>
      simp only [step] at taken
      split at taken
      · rename_i arrival
        cases taken
        refine consistent.write file fun row member same => ?_
        obtain ⟨bytes, holds, -⟩ := consistent.agrees row member
        rw [same, Fs.bytesAt, arrival.2] at holds
        cases holds
      · cases taken
  | importFile name events =>
      simp only [step] at taken
      split at taken
      · rename_i raw
        split at taken
        · rename_i shared completed
          cases taken
          have accepted : acceptedName
              (filename (joinPath cfg.watchDir name)) = true := by
            rw [filename_joinPath _ raw.1]
            exact raw.2
          have ready : Ready platform cfg library.shared.fs
              library.shared.db .fingerprint := trivial
          exact consistent_pass accepted succeeds consistent ready completed
        · cases taken
      · cases taken
  | reconvert job call =>
      cases taken
      obtain ⟨converted, output, opened, hashUpdated⟩ := succeeds
      exact consistent.reconvert job converted output opened hashUpdated
  | rotationUpdated sourcePath orientation clientId found =>
      cases taken
      unfold rotationUpdated
      split <;> exact consistent
  | dispatch importId call =>
      obtain ⟨rot, queued, rfl⟩ := Option.map_eq_some_iff.mp taken
      exact consistent.dispatch importId succeeds (unseen rot queued)
  | stop =>
      simp only [step] at taken
      split at taken
      · cases taken
      · cases taken
        exact consistent
  | drain importId call =>
      obtain ⟨rot, queued, rfl⟩ := Option.map_eq_some_iff.mp taken
      simp only [Rotation.drain_eq_dispatch _ _ _ succeeds]
      exact consistent.dispatch importId succeeds (unseen rot queued)
  | reembed path output call =>
      simp only [step] at taken
      split at taken
      · rename_i registered
        obtain ⟨row, member, rfl⟩ := registered
        cases taken
        obtain ⟨found, opened, hashUpdated⟩ := succeeds
        exact consistent.reembed member output found opened hashUpdated
      · cases taken

theorem rotationUnseen_of_agree
    (consistent : Consistent platform cfg library.shared.fs
      library.shared.db)
    (succeeds : Succeeds library operation)
    (taken : step platform cfg library operation = some after)
    (agree : HashesAgree platform after) :
    RotationUnseen platform library operation := by
  cases operation with
  | dispatch importId call =>
      obtain ⟨rot, queued, rfl⟩ := Option.map_eq_some_iff.mp taken
      intro rot' queued'
      rw [queued] at queued'
      cases queued'
      exact unseen_of_agrees consistent importId succeeds agree
  | drain importId call =>
      obtain ⟨rot, queued, rfl⟩ := Option.map_eq_some_iff.mp taken
      intro rot' queued'
      rw [queued] at queued'
      cases queued'
      unfold HashesAgree at agree
      simp only [Rotation.drain_eq_dispatch _ _ _ succeeds] at agree
      exact unseen_of_agrees consistent importId succeeds agree
  | _ => trivial

theorem consistent_initial (platform : Platform) (cfg : Config)
    (clock wall : Int) (fs : Fs) (db : Db) :
    Consistent platform cfg (initial clock wall fs db).shared.fs
      (initial clock wall fs db).shared.db := by
  refine ⟨?_, ?_, List.nodup_nil, List.nodup_nil, ?_⟩
  · intro row member
    cases member
  · intro row member
    cases member
  · intro row member
    cases member

/-- Over every run of completed imports, reconversions, rotations and
announced re-embeds whose tools and statements succeed: every row agrees with
its file between the operations exactly when no rotation shows in the digest
of its file. -/
theorem hashesAgree_run_iff (platform : Platform) (cfg : Config)
    (clock wall : Int) (fs : Fs) (db : Db) {operations : List Operation}
    (succeed : Along (step platform cfg) Succeeds
      (initial clock wall fs db) operations) :
    Visits (step platform cfg) (HashesAgree platform)
        (initial clock wall fs db) operations ↔
      Along (step platform cfg) (RotationUnseen platform)
        (initial clock wall fs db) operations := by
  refine visits_iff_along_of_assumed
    (fun library : Library => Consistent platform cfg library.shared.fs
      library.shared.db) ?_ ?_ ?_
    (consistent_initial platform cfg clock wall fs db) succeed
  · intro library consistent
    exact consistent.agrees
  · intro library operation after consistent succeeds unseen taken
    exact consistent_step consistent succeeds unseen taken
  · intro library operation after consistent succeeds taken agree
    exact rotationUnseen_of_agree consistent succeeds taken agree

/-- A library with one photograph in `watch_dir`. -/
def onePhotograph : Library :=
  initial 0 (60 * nsPerSecond) (Worker.onePhotograph 1).shared.fs {}

def importPhotograph : Operation :=
  .importFile "DSC_0001.NEF"
    [.fingerprint true true, .go, .hash true, .go, .lookup true,
      .exif { date := "2024-05-01", source := .exif }, .allocate {},
      .convert true (some ⟨[7], 0⟩), .go, .hash true,
      .insert true "2024-05-03 00:00:00", .move .renamed, .go]

instance (shared : Shared) (rot : Rotation.PendingRot)
    (call : Rotation.RotateCall) :
    Decidable (Unseen platform shared rot call) :=
  decidable_of_iff
    (∀ file ∈ call.output, call.acquired = true →
      ∀ row ∈ shared.db.imports, row.outputPath = rot.dngPath →
        ∀ old ∈ shared.fs.bytesAt rot.dngPath,
          platform.digest.sha256 file.bytes = platform.digest.sha256 old)
    ⟨fun all file acquired output => all file output acquired,
      fun unseen file output acquired => unseen file acquired output⟩

instance : Decidable (RotationUnseen platform library operation) := by
  cases operation with
  | dispatch importId call =>
      exact inferInstanceAs
        (Decidable (∀ rot ∈ library.pending importId, Unseen _ _ rot call))
  | drain importId call =>
      exact inferInstanceAs
        (Decidable (∀ rot ∈ library.remaining importId, Unseen _ _ rot call))
  | _ => exact instDecidableTrue

/-- It is reconverted, embedded into again and turned to where it is. -/
def editPhotograph : List Operation :=
  [importPhotograph,
    .reconvert { id := 1, importId := 1 } { output := some ⟨[2], 1⟩ },
    .reembed "/output/2024/05/IMG_1.dng" ⟨[1], 2⟩ {},
    .rotationUpdated "/watch/DSC_0001.NEF" 1 "digikam" true,
    .dispatch 1 { output := some ⟨[1], 3⟩ }]

theorem hashesAgree_editPhotograph :
    Visits (step photographs {}) (HashesAgree photographs) onePhotograph
        editPhotograph ∧
      ∃ library,
        run (step photographs {}) onePhotograph editPhotograph =
          some library ∧
        library.shared.db.imports.map ImportRow.outputHash =
          [photographs.digest.sha256 [1]] :=
  ⟨(hashesAgree_run_iff photographs {} 0 (60 * nsPerSecond) _ {}
    (by decide +kernel)).mpr (by decide +kernel),
    exists_run_of_decide (by decide +kernel)⟩

/-- The photograph is imported, then rotated through the API. -/
def rotatePhotograph : List Operation :=
  [importPhotograph,
    .rotationUpdated "/watch/DSC_0001.NEF" 6 "digikam" true,
    .dispatch 1 { output := some ⟨[2], 1⟩ }]

/-- Every tool and statement succeeds, and the row keeps the hash of the file
before the rotation. -/
theorem rotated_hash_stale :
    Along (step photographs {}) Succeeds onePhotograph rotatePhotograph ∧
    ∃ library,
      run (step photographs {}) onePhotograph rotatePhotograph =
        some library ∧
      library.shared.fs.bytesAt "/output/2024/05/IMG_1.dng" = some [2] ∧
      library.shared.db.imports.map (fun row =>
        (row.outputPath, row.outputHash)) =
          [("/output/2024/05/IMG_1.dng", photographs.digest.sha256 [7])] ∧
      ¬HashesAgree photographs library :=
  ⟨by decide +kernel, exists_run_of_decide (by decide +kernel)⟩

end Runs

end Library

end RawImport
