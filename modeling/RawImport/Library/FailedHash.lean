import RawImport.Library.Service
import RawImport.Worker.Sources

/-!
# Failed hashes

`sha256_file` reports a failure by the empty string, and four writers of
`output_hash` deal with it on their own: the pass, the drain and the
reconciliation write what they got, the preview handler checks it.  A written
hash is compared with what lay at the path of its row during the run.
-/

namespace RawImport

open PathText Transition

namespace Service

variable {n m : Nat}

section Definitions

variable (platform : Worker.Platform)

/-- The paths and hashes that `UpdateOutputHash` puts into rows. -/
def updated (db : Db) (id : Int) (newHash : String) (executed : Bool) :
    List (Path × String) :=
  if executed = true ∧ newHash.length ≤ 64 then
    (db.imports.filter fun row => decide ((row.id : Int) = id)).map
      fun row => (row.outputPath, newHash)
  else []

/-- `sha256_file` fails: there is no file, or it cannot be read. -/
def unreadable (fs : Fs) (path : Path) (opened : Bool) : Bool :=
  (fs path).isNone || !opened

/-- The pass of the thread has failed to hash its output. -/
def passHashFailed (thread : Fin n) :
    List (Service n m × Action n m) → Bool
  | [] => false
  | (service, .worker (.pass other (.hash opened))) :: past =>
      if other = thread then
        match service.world.threads thread with
        | some ⟨_, .hashOutput job⟩ =>
            unreadable service.shared.fs job.dst opened
        | _ => false
      else passHashFailed thread past
  | _ :: past => passHashFailed thread past

/-- The drain has failed to hash the DNG it has converted. -/
def drainHashFailed : List (Service n m × Action n m) → Bool
  | [] => false
  | (service, .drain (.hash opened)) :: past =>
      match service.drain with
      | .hash _ row => unreadable service.shared.fs row.outputPath opened
      | _ => drainHashFailed past
  | _ :: past => drainHashFailed past

/-- The operation that is about to write a hash has failed to compute it. -/
def hashFailed (state : Tracked (Service n m) (Action n m)) :
    Action n m → Bool
  | .worker (.pass thread (.insert _ _)) => passHashFailed thread state.past
  | .drain (.updateHash _) => drainHashFailed state.past
  | .reconcileFile cwd root entry =>
      unreadable state.now.shared.fs
        (Reconcile.entryAbsolute (state.now.context platform cwd) root entry)
        entry.opened
  | _ => false

/-- The rows' paths and hashes that an action writes to `imports`. -/
def writes (service : Service n m) : Action n m → List (Path × String)
  | .worker (.pass thread (.insert executed _)) =>
      match service.world.threads thread with
      | some ⟨_, .insert record⟩ =>
          if executed = true ∧
              service.shared.db.Accepts platform.mariadb record then
            [(record.outputPath, record.outputHash)]
          else []
      | _ => []
  | .drain (.updateHash executed) =>
      match service.drain with
      | .updateHash _ row h => updated service.shared.db row.id h executed
      | _ => []
  | .preview thread (.updateHash executed) =>
      match service.requests thread with
      | some (.updateHash _ r newHash) =>
          updated service.shared.db r.id newHash executed
      | _ => []
  | .reconcileFile cwd root entry =>
      if Reconcile.Registers (service.context platform cwd)
          service.shared.db (root, entry) then
        [(Reconcile.entryAbsolute (service.context platform cwd) root entry,
          sha256File platform.digest service.shared.fs
            (Reconcile.entryAbsolute (service.context platform cwd) root
              entry) entry.opened)]
      else []
  | _ => []

/-- At some time of the run the path held bytes with this digest. -/
def WasAt (state : Tracked (Service n m) (Action n m)) (path : Path)
    (hash : String) : Prop :=
  ∃ service ∈ state.now :: state.past.map Prod.fst,
    ∃ bytes, service.shared.fs.bytesAt path = some bytes ∧
      hash = platform.digest.sha256 bytes

/-- Every hash the step writes is the digest of bytes that were at the row's
path, a failed hash leaves the rows as they were, and no row becomes completed
with an empty hash. -/
structure HashesRecorded (cfg : Config)
    (state : Tracked (Service n m) (Action n m))
    (action : Action n m) : Prop where
  digests : ∀ entry ∈ writes platform state.now action,
    WasAt platform state entry.1 entry.2
  kept : hashFailed platform state action = true →
    ∀ after, step platform cfg state.now action = some after →
      ∀ row ∈ state.now.shared.db.imports,
        row ∈ after.shared.db.imports
  nonempty : ∀ after, step platform cfg state.now action = some after →
    ∀ row ∈ after.shared.db.imports, row.status = .completed →
      row.outputHash = "" → row ∈ state.now.shared.db.imports

/-- A preview request writes to the row of the path it has hashed, or what it
has hashed was at the row's path as well. -/
def OwnPath (state : Tracked (Service n m) (Action n m)) :
    Action n m → Prop
  | .preview thread (.updateHash executed) =>
      match state.now.requests thread with
      | some (.updateHash op r newHash) =>
          updated state.now.shared.db r.id newHash executed ≠ [] →
            op = r.outputPath ∨ WasAt platform state r.outputPath newHash
      | _ => True
  | _ => True

/-- The statement of an operation whose hash failed reaches no row. -/
def FailureUnwritten (state : Tracked (Service n m) (Action n m))
    (action : Action n m) : Prop :=
  hashFailed platform state action = true →
    writes platform state.now action = []

instance (state : Tracked (Service n m) (Action n m)) (path : Path)
    (hash : String) : Decidable (WasAt platform state path hash) := by
  unfold WasAt
  infer_instance

instance (state : Tracked (Service n m) (Action n m))
    (action : Action n m) : Decidable (OwnPath platform state action) := by
  unfold OwnPath
  split
  · split <;> infer_instance
  · infer_instance

instance (state : Tracked (Service n m) (Action n m))
    (action : Action n m) :
    Decidable (FailureUnwritten platform state action) := by
  unfold FailureUnwritten
  infer_instance

end Definitions

section Rows

variable {platform : Worker.Platform} {cfg : Config}
  {service after : Service n m} {action : Action n m}

/-- How a step changes `imports`: not at all, by one new row, or by new hashes
in the rows with one id; and what it writes. -/
inductive Rewrites (db next : Db) : List (Path × String) → Prop where
  | same (rows : next.imports = db.imports)
      (counter : next.nextImport = db.nextImport) : Rewrites db next []
  | insert (row : ImportRow) (rows : next.imports = db.imports ++ [row])
      (key : row.id = db.nextImport)
      (counter : next.nextImport = db.nextImport + 1) :
      Rewrites db next [(row.outputPath, row.outputHash)]
  | update (id : Int) (newHash : String)
      (rows : next.imports = db.imports.map fun row =>
        if (row.id : Int) = id then { row with outputHash := newHash }
        else row)
      (counter : next.nextImport = db.nextImport)
      (fits : newHash.length ≤ 64) :
      Rewrites db next (updated db id newHash true)

theorem rewrites_updateOutputHash (db : Db) (id : Int) (newHash : String)
    (executed : Bool) :
    Rewrites db (db.updateOutputHash id newHash executed)
      (updated db id newHash executed) := by
  by_cases taken : executed = true ∧ newHash.length ≤ 64
  · obtain ⟨rfl, fits⟩ := taken
    apply Rewrites.update id newHash _ _ fits
    · simp [Db.updateOutputHash, fits]
    · simp [Db.updateOutputHash, fits]
  · have refused : db.updateOutputHash id newHash executed = db := by
      unfold Db.updateOutputHash
      rw [if_neg taken]
    have nothing : updated db id newHash executed = [] := by
      unfold updated
      rw [if_neg taken]
    rw [refused, nothing]
    exact .same rfl rfl

theorem rewrites_insertImport (mariadb : Mariadb) (db : Db)
    (record : ImportRecord) (executed : Bool) (now : String) :
    Rewrites db (db.insertImport mariadb record executed now).1
      (if executed = true ∧ db.Accepts mariadb record then
        [(record.outputPath, record.outputHash)] else []) := by
  rcases Db.insertImport_cases mariadb db record executed now with
    ⟨reached, accepted, after⟩ | ⟨refused, after⟩
  · rw [if_pos ⟨reached, accepted⟩, after]
    exact .insert (db.importRow record now) rfl rfl rfl
  · rw [if_neg refused, after]
    exact .same rfl rfl

theorem rewrites_visitFile (context : Reconcile.Context) (db : Db)
    (root : Path) (entry : Reconcile.Entry) :
    Rewrites db
      (Reconcile.visitFile context { db := db } (root, entry)).db
      (if Reconcile.Registers context db (root, entry) then
        [(Reconcile.entryAbsolute context root entry,
          sha256File context.digest context.fs
            (Reconcile.entryAbsolute context root entry) entry.opened)]
      else []) := by
  unfold Reconcile.visitFile
  split
  · rename_i unnumbered
    have refused : ¬Reconcile.Registers context db (root, entry) := by
      intro registers
      obtain ⟨number, some, -⟩ := registers
      rw [unnumbered] at some
      cases some
    rw [if_neg refused]
    exact .same rfl rfl
  · rename_i number numbered
    simp only
    split
    · rename_i row known
      have refused : ¬Reconcile.Registers context db (root, entry) := by
        intro registers
        obtain ⟨-, -, unknown, -⟩ := registers
        rw [known] at unknown
        cases unknown
      rw [if_neg refused]
      exact .same rfl rfl
    · rename_i unknown
      have inserted := rewrites_insertImport context.mariadb db
        (Reconcile.legacyRecord context root entry number) entry.executed
        entry.now
      by_cases taken : entry.executed = true ∧ db.Accepts context.mariadb
          (Reconcile.legacyRecord context root entry number)
      · have registers : Reconcile.Registers context db (root, entry) :=
          ⟨number, numbered, unknown, taken⟩
        rw [if_pos taken] at inserted
        rw [if_pos registers]
        exact inserted
      · have refused : ¬Reconcile.Registers context db (root, entry) := by
          intro registers
          obtain ⟨number', numbered', -, taken'⟩ := registers
          rw [numbered] at numbered'
          cases numbered'
          exact taken taken'
        rw [if_neg taken] at inserted
        rw [if_neg refused]
        exact inserted

theorem rewrites_pass {path : Path} {shared next : Worker.Shared}
    {stage stage' : Worker.ProcessFile.Stage}
    {event : Worker.ProcessFile.Event}
    (step : Worker.ProcessFile.Step platform cfg path shared stage event
      next stage') :
    (∃ record executed now, stage = .insert record ∧
      event = .insert executed now ∧
      next.db = (shared.db.insertImport platform.mariadb record executed
        now).1) ∨
    ((∀ executed now, event ≠ .insert executed now) ∧
      Rewrites shared.db next.db []) := by
  cases step with
  | insert => exact .inl ⟨_, _, _, rfl, rfl, rfl⟩
  | noSequence => exact .inr ⟨nofun, .same (by simp) (by simp)⟩
  | allocate => exact .inr ⟨nofun, .same (by simp) (by simp)⟩
  | alert => exact .inr ⟨nofun, .same (by simp) (by simp)⟩
  | _ => exact .inr ⟨nofun, .same rfl rfl⟩

theorem rewrites_worker {world next : Worker.World n}
    {action : Worker.Action n}
    (taken : Worker.step platform cfg world action = some next)
    (service : Service n m) (here : service.world = world) :
    Rewrites world.shared.db next.shared.db
      (writes platform service (.worker action)) := by
  subst here
  cases action with
  | pass thread event =>
      obtain ⟨pass, shared, stage, busy, passStep, rfl⟩ :=
        Worker.pass_cases taken
      rcases rewrites_pass passStep with
        ⟨record, executed, now, atStage, rfl, tables⟩ | ⟨other, same⟩
      · obtain ⟨path, stage⟩ := pass
        subst atStage
        simp only [writes, busy]
        exact tables ▸ rewrites_insertImport _ _ _ _ _
      · cases event with
        | insert executed now => exact (other executed now rfl).elim
        | _ => exact same
  | advance ns =>
      cases taken
      exact .same rfl rfl
  | setWall wall =>
      cases taken
      exact .same rfl rfl
  | external path file =>
      cases taken
      exact .same rfl rfl
  | beginScan =>
      rw [(Worker.beginScan_cases taken).1]
      exact .same rfl rfl
  | endScan =>
      rw [(Worker.endScan_cases taken).1]
      exact .same rfl rfl
  | cleanup =>
      rw [(Worker.cleanup_cases taken).1]
      exact .same rfl rfl
  | scanFile name =>
      obtain ⟨now, file, -, -, -, ⟨-, rfl⟩ | ⟨-, rfl⟩⟩ :=
        Worker.scanFile_cases taken
      · exact .same rfl rfl
      · exact .same rfl rfl
  | pop thread =>
      obtain ⟨path, impl, -, -, rfl⟩ := Worker.pop_cases taken
      exact .same rfl rfl
  | finish thread =>
      obtain ⟨path, -, rfl⟩ := Worker.finish_cases taken
      exact .same rfl rfl

theorem rewrites_drain {event : Worker.ReconvertDrain.Event}
    {next : Worker.Shared} {stage stage' : Worker.ReconvertDrain.Stage}
    (atStage : service.drain = stage)
    (drained : Worker.ReconvertDrain.Step platform service.shared stage event
      next stage') :
    Rewrites service.shared.db next.db
      (writes platform service (.drain event)) := by
  cases drained with
  | updateHash =>
      simp only [writes, atStage]
      exact rewrites_updateOutputHash _ _ _ _
  | finish => exact .same (by simp) (by simp)
  | _ => exact .same rfl rfl

theorem rewrites_preview {thread : Fin m}
    {event : Api.PreviewUpdated.Event} {next : Worker.Shared}
    {stage stage' : Api.PreviewUpdated.Stage}
    (busy : service.requests thread = some stage)
    (handled : Api.PreviewUpdated.Step platform service.shared stage event
      next stage') :
    Rewrites service.shared.db next.db
      (writes platform service (.preview thread event)) := by
  cases handled with
  | updateHash =>
      simp only [writes, busy]
      exact rewrites_updateOutputHash _ _ _ _
  | record => exact .same (by simp) (by simp)
  | _ => exact .same rfl rfl

theorem step_rewrites
    (taken : step platform cfg service action = some after) :
    Rewrites service.shared.db after.shared.db
      (writes platform service action) := by
  cases action with
  | worker action =>
      obtain ⟨world, workerTaken, rfl⟩ := Option.map_eq_some_iff.mp taken
      exact rewrites_worker workerTaken service rfl
  | queueReconvert job =>
      cases taken
      exact .same rfl rfl
  | takeReconvert =>
      obtain ⟨job, rest, -, -, rfl⟩ := takeReconvert_cases taken
      exact .same rfl rfl
  | drain event =>
      obtain ⟨next, stage, drained, rfl⟩ := drain_result taken
      exact rewrites_drain rfl drained
  | request thread op =>
      rw [request_cases taken]
      exact .same rfl rfl
  | preview thread event =>
      obtain ⟨stage, next, stage', busy, handled, rfl⟩ := preview_result taken
      exact rewrites_preview busy handled
  | respond thread =>
      rw [respond_cases taken]
      exact .same rfl rfl
  | reconcileFile cwd root entry =>
      cases taken
      exact rewrites_visitFile _ _ _ _
  | reserve outcome =>
      cases taken
      exact .same (by simp) (by simp)

end Rows

section Invariant

variable {platform : Worker.Platform} {cfg : Config}

/-- The primary key of `imports` with its counter. -/
structure ImportsKeyed (db : Db) : Prop where
  different : (db.imports.map ImportRow.id).Nodup
  below : ∀ row ∈ db.imports, row.id < db.nextImport

/-- What a thread has read of a row: the row keeps its path. -/
structure Snapshot (db : Db) (row : ImportRow) : Prop where
  below : row.id < db.nextImport
  path : ∀ other ∈ db.imports, other.id = row.id →
    other.outputPath = row.outputPath

section Tables

variable {db next : Db} {written : List (Path × String)}

theorem Rewrites.keyed (rewrites : Rewrites db next written)
    (keyed : ImportsKeyed db) : ImportsKeyed next := by
  cases rewrites with
  | same rows counter =>
      constructor
      · rw [rows]
        exact keyed.different
      · rw [rows, counter]
        exact keyed.below
  | insert row rows key counter =>
      constructor
      · rw [rows, List.map_append, List.nodup_append]
        refine ⟨keyed.different, List.nodup_singleton _, ?_⟩
        intro id old id' new same
        obtain ⟨other, member, rfl⟩ := List.mem_map.mp old
        rw [List.map_singleton, List.mem_singleton] at new
        have below := keyed.below other member
        omega
      · rw [rows, counter]
        intro other member
        rcases List.mem_append.mp member with old | new
        · exact Nat.lt_succ_of_lt (keyed.below other old)
        · rw [List.mem_singleton.mp new, key]
          exact Nat.lt_succ_self _
  | update id newHash rows counter fits =>
      constructor
      · rw [rows, List.map_map]
        have same : (ImportRow.id ∘ fun row : ImportRow =>
            if (row.id : Int) = id then { row with outputHash := newHash }
            else row) = ImportRow.id := by
          funext row
          simp only [Function.comp_apply]
          split <;> rfl
        rw [same]
        exact keyed.different
      · rw [rows, counter]
        intro changed member
        obtain ⟨row, present, rfl⟩ := List.mem_map.mp member
        split
        · exact keyed.below row present
        · exact keyed.below row present

theorem Rewrites.snapshot {row : ImportRow}
    (rewrites : Rewrites db next written) (snapshot : Snapshot db row) :
    Snapshot next row := by
  cases rewrites with
  | same rows counter =>
      constructor
      · rw [counter]
        exact snapshot.below
      · rw [rows]
        exact snapshot.path
  | insert added rows key counter =>
      constructor
      · rw [counter]
        exact Nat.lt_succ_of_lt snapshot.below
      · rw [rows]
        intro other member same
        rcases List.mem_append.mp member with old | new
        · exact snapshot.path other old same
        · rw [List.mem_singleton.mp new, key] at same
          have below := snapshot.below
          omega
  | update id newHash rows counter fits =>
      constructor
      · rw [counter]
        exact snapshot.below
      · rw [rows]
        intro changed member same
        obtain ⟨other, present, rfl⟩ := List.mem_map.mp member
        split at same
        · rename_i updated
          rw [if_pos updated]
          exact snapshot.path other present same
        · rename_i kept
          rw [if_neg kept]
          exact snapshot.path other present same

theorem snapshot_of_member {row : ImportRow} (keyed : ImportsKeyed db)
    (member : row ∈ db.imports) : Snapshot db row := by
  constructor
  · exact keyed.below row member
  · intro other present same
    rw [List.inj_on_of_nodup_map keyed.different present member same]

/-- An update through a snapshot writes to the snapshot's path. -/
theorem mem_updated {row : ImportRow} {newHash : String} {executed : Bool}
    {entry : Path × String} (snapshot : Snapshot db row)
    (member : entry ∈ updated db row.id newHash executed) :
    entry = (row.outputPath, newHash) := by
  unfold updated at member
  split at member
  · obtain ⟨other, found, rfl⟩ := List.mem_map.mp member
    obtain ⟨present, same⟩ := List.mem_filter.mp found
    have equal : (other.id : Int) = row.id := of_decide_eq_true same
    rw [snapshot.path other present (by omega)]
  · cases member

theorem updated_hash {id : Int} {newHash : String} {executed : Bool}
    {entry : Path × String}
    (member : entry ∈ updated db id newHash executed) :
    entry.2 = newHash := by
  unfold updated at member
  split at member
  · obtain ⟨other, -, rfl⟩ := List.mem_map.mp member
    rfl
  · cases member

/-- Without an empty hash among the written ones no row gets one. -/
theorem Rewrites.nonempty (rewrites : Rewrites db next written)
    (hashes : ∀ entry ∈ written, entry.2 ≠ "") :
    ∀ row ∈ next.imports, row.outputHash = "" → row ∈ db.imports := by
  intro row member empty
  cases rewrites with
  | same rows counter =>
      rw [rows] at member
      exact member
  | insert added rows key counter =>
      rw [rows] at member
      rcases List.mem_append.mp member with old | new
      · exact old
      · rw [List.mem_singleton.mp new] at empty
        exact (hashes _ (List.mem_singleton.mpr rfl) empty).elim
  | update id newHash rows counter fits =>
      rw [rows] at member
      obtain ⟨old, present, rfl⟩ := List.mem_map.mp member
      split at empty
      · rename_i updated'
        have written' : (old.outputPath, newHash) ∈
            updated db id newHash true := by
          unfold updated
          rw [if_pos ⟨rfl, fits⟩]
          refine List.mem_map.mpr ⟨old, ?_, rfl⟩
          exact List.mem_filter.mpr ⟨present, decide_eq_true updated'⟩
        exact (hashes _ written' empty).elim
      · rename_i kept
        rw [if_neg kept]
        exact present

theorem Rewrites.kept (rewrites : Rewrites db next written)
    (nothing : written = []) : ∀ row ∈ db.imports, row ∈ next.imports := by
  intro row member
  cases rewrites with
  | same rows counter =>
      rw [rows]
      exact member
  | insert added rows key counter => cases nothing
  | update id newHash rows counter fits =>
      rw [rows]
      refine List.mem_map.mpr ⟨row, member, ?_⟩
      rw [if_neg]
      intro updated'
      unfold updated at nothing
      rw [if_pos ⟨rfl, fits⟩, List.map_eq_nil_iff] at nothing
      have found := List.filter_eq_nil_iff.mp nothing row member
      exact found (decide_eq_true updated')

end Tables

/-- The hash of a stage is empty when it could not be computed, and else the
digest of bytes that were at its path. -/
def HashSound (platform : Worker.Platform)
    (state : Tracked (Service n m) (Action n m)) (failed : Bool)
    (path : Path) (hash : String) : Prop :=
  (failed = true ∧ hash = "") ∨
  (failed = false ∧ WasAt platform state path hash)

theorem WasAt.mono {state after : Tracked (Service n m) (Action n m)}
    {action : Action n m} {path : Path} {hash : String}
    (was : WasAt platform state path hash)
    (past : after.past = (state.now, action) :: state.past) :
    WasAt platform after path hash := by
  obtain ⟨service, member, bytes, holds, digest⟩ := was
  refine ⟨service, ?_, bytes, holds, digest⟩
  rw [past]
  exact List.mem_cons_of_mem _ member

theorem HashSound.mono {state after : Tracked (Service n m) (Action n m)}
    {action : Action n m} {failed : Bool} {path : Path} {hash : String}
    (sound : HashSound platform state failed path hash)
    (past : after.past = (state.now, action) :: state.past) :
    HashSound platform after failed path hash := by
  rcases sound with empty | ⟨read, was⟩
  · exact .inl empty
  · exact .inr ⟨read, was.mono past⟩

theorem hashSound_sha256File
    (state : Tracked (Service n m) (Action n m)) (path : Path)
    (opened : Bool) :
    HashSound platform state (unreadable state.now.shared.fs path opened)
      path (sha256File platform.digest state.now.shared.fs path opened) := by
  unfold sha256File unreadable
  cases present : state.now.shared.fs path with
  | none => exact .inl ⟨rfl, rfl⟩
  | some file =>
      cases opened with
      | false => exact .inl ⟨rfl, rfl⟩
      | true =>
          refine .inr ⟨rfl, state.now, List.mem_cons_self, file.bytes, ?_,
            rfl⟩
          simp [Fs.bytesAt, present]

theorem WasAt.ne_empty {state : Tracked (Service n m) (Action n m)}
    {path : Path} {hash : String} (was : WasAt platform state path hash) :
    hash ≠ "" := by
  obtain ⟨service, -, bytes, -, rfl⟩ := was
  exact platform.digest.sha256_ne_empty bytes

theorem HashSound.empty {state : Tracked (Service n m) (Action n m)}
    {failed : Bool} {path : Path} {hash : String}
    (sound : HashSound platform state failed path hash)
    (fails : failed = true) : hash = "" := by
  rcases sound with ⟨-, empty⟩ | ⟨read, -⟩
  · exact empty
  · rw [fails] at read
    cases read

theorem HashSound.was {state : Tracked (Service n m) (Action n m)}
    {failed : Bool} {path : Path} {hash : String}
    (sound : HashSound platform state failed path hash)
    (read : failed = false) : WasAt platform state path hash := by
  rcases sound with ⟨fails, -⟩ | ⟨-, was⟩
  · rw [read] at fails
    cases fails
  · exact was

theorem HashSound.was_of_ne {state : Tracked (Service n m) (Action n m)}
    {failed : Bool} {path : Path} {hash : String}
    (sound : HashSound platform state failed path hash)
    (nonempty : hash ≠ "") : WasAt platform state path hash := by
  rcases sound with ⟨-, empty⟩ | ⟨-, was⟩
  · exact (nonempty empty).elim
  · exact was

section Stages

variable (platform : Worker.Platform)
  (state : Tracked (Service n m) (Action n m))

def DrainSound : Worker.ReconvertDrain.Stage → Prop
  | .convert _ row => Snapshot state.now.shared.db row
  | .hash _ row => Snapshot state.now.shared.db row
  | .updateHash _ row h =>
      Snapshot state.now.shared.db row ∧
        HashSound platform state (drainHashFailed state.past)
          row.outputPath h
  | _ => True

/-- What a preview request holds; it has checked its hash. -/
def RequestSound : Api.PreviewUpdated.Stage → Prop
  | .hash _ r => Snapshot state.now.shared.db r
  | .updateHash op r newHash =>
      Snapshot state.now.shared.db r ∧ WasAt platform state op newHash
  | _ => True

/-- Every hash on its way into `imports` is empty because it could not be
computed, or was at its path. -/
structure HashInvariant : Prop where
  keyed : ImportsKeyed state.now.shared.db
  passes : ∀ thread path record,
    state.now.world.threads thread = some ⟨path, .insert record⟩ →
      HashSound platform state (passHashFailed thread state.past)
        record.outputPath record.outputHash
  drain : DrainSound platform state state.now.drain
  requests : ∀ thread stage, state.now.requests thread = some stage →
    RequestSound platform state stage

end Stages

theorem hashInvariant_start (clock wall : Int) (fs : Fs) {db : Db}
    (keyed : ImportsKeyed db) :
    HashInvariant platform
      (.start (initial (n := n) (m := m) clock wall fs db)) := by
  constructor
  · exact keyed
  · intro thread path record busy
    cases busy
  · trivial
  · intro thread stage busy
    cases busy

section Step

variable {state after : Tracked (Service n m) (Action n m)}
  {action : Action n m}

theorem drainHashFailed_quiet {service : Service n m}
    {past : List (Service n m × Action n m)}
    (other : ∀ event, action ≠ .drain event) :
    drainHashFailed ((service, action) :: past) = drainHashFailed past := by
  cases action with
  | drain event => exact (other event rfl).elim
  | _ => rfl

theorem passHashFailed_quiet {service : Service n m} {thread : Fin n}
    {past : List (Service n m × Action n m)}
    (other : ∀ event, action ≠ .worker (.pass thread event)) :
    passHashFailed thread ((service, action) :: past) =
      passHashFailed thread past := by
  cases action with
  | worker workerAction =>
      cases workerAction with
      | pass worker event =>
          cases event with
          | hash opened =>
              have different : worker ≠ thread := by
                intro same
                subst same
                exact other (.hash opened) rfl
              simp only [passHashFailed, if_neg different]
          | _ => rfl
      | _ => rfl
  | _ => rfl

theorem DrainSound.mono {stage : Worker.ReconvertDrain.Stage}
    (sound : DrainSound platform state stage)
    (rewrites : Rewrites state.now.shared.db after.now.shared.db
      (writes platform state.now action))
    (past : after.past = (state.now, action) :: state.past)
    (other : ∀ event, action ≠ .drain event) :
    DrainSound platform after stage := by
  cases stage with
  | convert job row => exact rewrites.snapshot sound
  | hash job row => exact rewrites.snapshot sound
  | updateHash job row h =>
      refine ⟨rewrites.snapshot sound.1, ?_⟩
      rw [past, drainHashFailed_quiet other]
      exact sound.2.mono past
  | _ => trivial

theorem RequestSound.mono {stage : Api.PreviewUpdated.Stage}
    (sound : RequestSound platform state stage)
    (rewrites : Rewrites state.now.shared.db after.now.shared.db
      (writes platform state.now action))
    (past : after.past = (state.now, action) :: state.past) :
    RequestSound platform after stage := by
  cases stage with
  | hash op r => exact rewrites.snapshot sound
  | updateHash op r newHash =>
      exact ⟨rewrites.snapshot sound.1, sound.2.mono past⟩
  | _ => trivial

theorem DrainSound.step {stage : Worker.ReconvertDrain.Stage}
    {event : Worker.ReconvertDrain.Event} {next : Worker.Shared}
    (sound : DrainSound platform state state.now.drain)
    (keyed : ImportsKeyed state.now.shared.db)
    (rewrites : Rewrites state.now.shared.db after.now.shared.db
      (writes platform state.now (.drain event)))
    (past : after.past = (state.now, .drain event) :: state.past)
    (drained : Worker.ReconvertDrain.Step platform state.now.shared
      state.now.drain event next stage) :
    DrainSound platform after stage := by
  generalize atStage : state.now.drain = before at sound drained
  cases drained with
  | found found =>
      exact rewrites.snapshot
        (snapshot_of_member keyed (Db.mem_of_getImportById found))
  | convert => exact rewrites.snapshot sound
  | @hash job row opened =>
      refine ⟨rewrites.snapshot sound, ?_⟩
      have failed : drainHashFailed after.past =
          unreadable state.now.shared.fs row.outputPath opened := by
        rw [past]
        simp only [drainHashFailed, atStage]
      rw [failed]
      exact (hashSound_sha256File state row.outputPath opened).mono past
  | _ => trivial

theorem RequestSound.step {stage stage' : Api.PreviewUpdated.Stage}
    {event : Api.PreviewUpdated.Event} {next : Worker.Shared}
    (sound : RequestSound platform state stage)
    (keyed : ImportsKeyed state.now.shared.db)
    (rewrites : Rewrites state.now.shared.db after.now.shared.db
      (writes platform state.now action))
    (past : after.past = (state.now, action) :: state.past)
    (handled : Api.PreviewUpdated.Step platform state.now.shared stage event
      next stage') :
    RequestSound platform after stage' := by
  cases handled with
  | found found =>
      exact rewrites.snapshot
        (snapshot_of_member keyed (Db.mem_of_getImportByOutputPath found))
  | @hash op r opened readable =>
      exact ⟨rewrites.snapshot sound,
        ((hashSound_sha256File state op opened).was_of_ne readable).mono
          past⟩
  | _ => trivial

/-- A pass that is about to insert was so before or has just hashed its
output. -/
theorem inserting_step
    (invariant : HashInvariant platform state)
    (taken : track (step platform cfg) state action = some after)
    (thread : Fin n) {path : Path} {inserting : ImportRecord}
    (busy : after.now.world.threads thread =
      some ⟨path, .insert inserting⟩) :
    HashSound platform after (passHashFailed thread after.past)
      inserting.outputPath inserting.outputHash := by
  obtain ⟨stepTaken, past⟩ := track_eq_some_iff.mp taken
  have before : state.now.world.threads thread =
      some ⟨path, .insert inserting⟩ →
      (∀ event, action ≠ .worker (.pass thread event)) →
      HashSound platform after (passHashFailed thread after.past)
        inserting.outputPath inserting.outputHash := by
    intro busy other
    rw [past, passHashFailed_quiet other]
    exact (invariant.passes thread path inserting busy).mono past
  rcases step_threads stepTaken with
    ⟨workerAction, rfl, workerTaken⟩ | ⟨other, same⟩
  · rcases Worker.step_cases workerTaken with ⟨notPass, -, -, kept⟩ |
      ⟨worker, event, pass, shared, stage, rfl, running, passStep, now⟩
    · rcases kept thread _ busy with old | fresh
      · apply before old
        intro event same
        cases same
        exact notPass thread event rfl
      · cases fresh
    · rw [now] at busy
      by_cases same : thread = worker
      · subst same
        rw [Worker.World.setThread_same] at busy
        cases busy
        obtain ⟨-, job, opened, atStage, rfl, output, hash⟩ :=
          passStep.inserting rfl
        have failed : passHashFailed thread after.past =
            unreadable state.now.shared.fs job.dst opened := by
          rw [past]
          obtain ⟨here, stage⟩ := pass
          subst atStage
          simp only [passHashFailed, if_true, running]
        rw [failed, output, hash]
        exact (hashSound_sha256File state job.dst opened).mono past
      · rw [Worker.World.setThread_other _ _ same] at busy
        apply before busy
        intro event equal
        cases equal
        exact same rfl
  · rw [same] at busy
    exact before busy fun event => other _

theorem hashInvariant_step
    (invariant : HashInvariant platform state)
    (taken : track (step platform cfg) state action = some after) :
    HashInvariant platform after := by
  obtain ⟨stepTaken, past⟩ := track_eq_some_iff.mp taken
  have rewrites := step_rewrites stepTaken
  constructor
  · exact rewrites.keyed invariant.keyed
  · intro thread path inserting busy
    exact inserting_step invariant taken thread busy
  · rcases step_drain stepTaken with ⟨other, same⟩ | ⟨job, started⟩ |
      ⟨event, next, rfl, drained⟩
    · rw [same]
      exact invariant.drain.mono rewrites past other
    · rw [started]
      trivial
    · exact invariant.drain.step invariant.keyed rewrites past drained
  · intro thread stage busy
    rcases step_requests thread stepTaken with same | ended | ⟨op, started⟩ |
      ⟨old, event, next, stage', wasBusy, handled, isBusy⟩
    · rw [same] at busy
      exact (invariant.requests thread stage busy).mono rewrites past
    · rw [ended] at busy
      cases busy
    · rw [started] at busy
      cases busy
      unfold Api.PreviewUpdated.start
      split <;> trivial
    · rw [isBusy] at busy
      cases busy
      exact (invariant.requests thread old wasBusy).step invariant.keyed
        rewrites past handled

theorem empty_of_written (invariant : HashInvariant platform state)
    (failed : hashFailed platform state action = true)
    {entry : Path × String}
    (written : entry ∈ writes platform state.now action) : entry.2 = "" := by
  unfold writes at written
  split at written
  · split at written
    · rename_i busy
      split at written
      · rw [List.mem_singleton.mp written]
        exact (invariant.passes _ _ _ busy).empty failed
      · cases written
    · cases written
  · split at written
    · rename_i atStage
      have sound := invariant.drain
      rw [atStage] at sound
      rw [updated_hash written]
      exact sound.2.empty failed
    · cases written
  · cases failed
  · split at written
    · rw [List.mem_singleton.mp written]
      exact (hashSound_sha256File state _ _).empty failed
    · cases written
  · cases written

/-- A written hash that was computed was at the path of its row. -/
theorem wasAt_of_written (invariant : HashInvariant platform state)
    (own : OwnPath platform state action)
    (read : hashFailed platform state action = false)
    {entry : Path × String}
    (written : entry ∈ writes platform state.now action) :
    WasAt platform state entry.1 entry.2 := by
  unfold writes at written
  split at written
  · split at written
    · rename_i busy
      split at written
      · rw [List.mem_singleton.mp written]
        exact (invariant.passes _ _ _ busy).was read
      · cases written
    · cases written
  · split at written
    · rename_i atStage
      have sound := invariant.drain
      rw [atStage] at sound
      rw [mem_updated sound.1 written]
      exact sound.2.was read
    · cases written
  · split at written
    · rename_i op r newHash busy
      obtain ⟨snapshot, was⟩ := invariant.requests _ _ busy
      have reached := List.ne_nil_of_mem written
      simp only [OwnPath, busy] at own
      rw [mem_updated snapshot written]
      rcases own reached with same | there
      · exact same ▸ was
      · exact there
    · cases written
  · split at written
    · rw [List.mem_singleton.mp written]
      exact (hashSound_sha256File state _ _).was read
    · cases written
  · cases written

/-- In a step from a sound state the hashes are recorded exactly when a failed
one is not written and a preview request stays with its path. -/
theorem hashesRecorded_iff (invariant : HashInvariant platform state)
    (taken : track (step platform cfg) state action = some after) :
    HashesRecorded platform cfg state action ↔
      FailureUnwritten platform state action ∧
        OwnPath platform state action := by
  constructor
  · intro recorded
    constructor
    · intro failed
      rw [List.eq_nil_iff_forall_not_mem]
      intro entry written
      have was := recorded.digests entry written
      exact was.ne_empty (empty_of_written invariant failed written)
    · unfold OwnPath
      split
      · split
        · rename_i thread executed op r newHash busy
          intro reached
          obtain ⟨entry, written⟩ := List.exists_mem_of_ne_nil _ reached
          obtain ⟨snapshot, -⟩ := invariant.requests _ _ busy
          have was := recorded.digests entry (by
            simpa only [writes, busy] using written)
          rw [mem_updated snapshot written] at was
          exact .inr was
        · trivial
      · trivial
  · intro conditions
    obtain ⟨unwritten, own⟩ := conditions
    have digests : ∀ entry ∈ writes platform state.now action,
        WasAt platform state entry.1 entry.2 := by
      intro entry written
      cases failed : hashFailed platform state action with
      | true =>
          rw [unwritten failed] at written
          cases written
      | false => exact wasAt_of_written invariant own failed written
    obtain ⟨stepTaken, -⟩ := track_eq_some_iff.mp taken
    constructor
    · exact digests
    · intro failed next nextTaken
      exact (step_rewrites nextTaken).kept (unwritten failed)
    · intro next nextTaken row member completed empty
      refine (step_rewrites nextTaken).nonempty ?_ row member empty
      intro entry written
      exact (digests entry written).ne_empty

end Step

end Invariant

/-- Failed hashes over whole runs: for any files, tables and interleaving of
passes, drain, requests and reconciliation, and every pattern of failures, the
hashes of all steps are recorded exactly when the statement of an operation
whose hash failed reaches no row and every preview request writes to the row
of its path. -/
theorem hashesRecorded_run_iff (platform : Worker.Platform) (cfg : Config)
    (clock wall : Int) (fs : Fs) {db : Db} (keyed : ImportsKeyed db)
    (actions : List (Action n m)) :
    Along (track (step platform cfg)) (HashesRecorded platform cfg)
        (.start (initial clock wall fs db)) actions ↔
      Along (track (step platform cfg))
        (fun state action => FailureUnwritten platform state action ∧
          OwnPath platform state action)
        (.start (initial clock wall fs db)) actions := by
  apply along_iff_along (HashInvariant platform)
  · intro state action after invariant conditions taken
    exact hashInvariant_step invariant taken
  · intro state action after invariant taken
    exact hashesRecorded_iff invariant taken
  · exact hashInvariant_start clock wall fs keyed

/-- One photograph in `watch_dir` of a service with one converter and one HTTP
thread. -/
def photographWatched : Service 1 1 :=
  initial 0 (60 * Worker.nsPerSecond)
    (fun path =>
      if path = "/watch/DSC_0001.NEF" then some ⟨[1], 0⟩ else none) {}

/-- The photograph is imported, a preview is embedded in its DNG, a first
notification cannot read the file and a second one can. -/
def previewNotified : List (Action 1 1) :=
  (Worker.scanning "DSC_0001.NEF" ++
    Worker.importing 0 "2024-05-01" ⟨[7], 0⟩ true).map .worker ++
  [.worker (.external "/output/2024/05/IMG_1.dng" (some ⟨[2], 0⟩)),
    .request 0 "/output/2024/05/IMG_1.dng",
    .preview 0 (.lookup true), .preview 0 (.hash false), .respond 0,
    .request 0 "/output/2024/05/IMG_1.dng",
    .preview 0 (.lookup true), .preview 0 (.hash true),
    .preview 0 (.updateHash true), .preview 0 (.record true), .respond 0]

theorem hashesRecorded_previewNotified :
    Along (track (step Worker.photographs {}))
      (HashesRecorded Worker.photographs {})
      (.start photographWatched) previewNotified :=
  (hashesRecorded_run_iff Worker.photographs {} 0 (60 * Worker.nsPerSecond)
    _ ⟨by decide, by decide⟩ previewNotified).mpr (by decide +kernel)

/-- The same import up to its row, without a hash of the output. -/
def importUnhashed : List (Action 1 1) :=
  (Worker.scanning "DSC_0001.NEF" ++ Worker.hashing 0).map .worker ++
  [.worker (.pass 0 (.exif { date := "2024-05-01", source := .exif })),
    .worker (.pass 0 (.allocate {})),
    .worker (.pass 0 (.convert true (some ⟨[7], 0⟩))),
    .worker (.pass 0 .go), .worker (.pass 0 (.hash false))]

/-- The pass inserts a completed row with the empty hash. -/
theorem failed_hash_inserted :
    (∃ state,
      run (track (step Worker.photographs {})) (.start photographWatched)
        (importUnhashed ++
          [.worker (.pass 0 (.insert true "2024-05-03 00:00:00"))]) =
        some state ∧
      ∃ row ∈ state.now.shared.db.imports,
        row.status = .completed ∧ row.outputHash = "") ∧
    ¬Along (track (step Worker.photographs {}))
      (HashesRecorded Worker.photographs {}) (.start photographWatched)
      (importUnhashed ++
        [.worker (.pass 0 (.insert true "2024-05-03 00:00:00"))]) := by
  constructor
  · exact exists_run_of_decide (by decide +kernel)
  · intro recorded
    have inserting : ∃ state,
        run (track (step Worker.photographs {}))
          (.start photographWatched) importUnhashed = some state ∧
        state.now.shared.db.imports = [] ∧
        (step Worker.photographs {} state.now
          (.worker (.pass 0 (.insert true "2024-05-03 00:00:00")))).map
            (fun after => decide (∃ row ∈ after.shared.db.imports,
              row.status = .completed ∧ row.outputHash = "")) =
          some true := exists_run_of_decide (by decide +kernel)
    obtain ⟨state, reached, empty, result⟩ := inserting
    obtain ⟨after, taken, holds⟩ := Option.map_eq_some_iff.mp result
    obtain ⟨row, member, completed, unhashed⟩ := of_decide_eq_true holds
    have sound := recorded.last reached (track_of_step taken)
    have old := sound.nonempty after taken row member completed unhashed
    rw [empty] at old
    cases old

end Service

end RawImport
