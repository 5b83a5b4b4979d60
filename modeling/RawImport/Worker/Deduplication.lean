import RawImport.Worker.Tokens

/-!
# Deduplication

`GetImportByHash` and `InsertImport` are separate steps with the slow stages
of a pass between them, and the schema has no unique key on `source_hash`.
A pass is pending from a lookup that found nothing until its insert.  The
lookups that find nothing while an equal hash is pending, or without asking
the server, are the only source of a second row.
-/

namespace RawImport

namespace Worker

open Transition

def NoRow (db : Db) (hash : String) : Prop :=
  ∀ row ∈ db.imports, row.status = .completed → row.sourceHash ≠ hash

instance (db : Db) (hash : String) : Decidable (NoRow db hash) :=
  inferInstanceAs (Decidable (∀ row ∈ db.imports, _))

/-- No two rows of the converter carry one source hash. -/
def ImportedOnce (db : Db) : Prop :=
  db.imports.Pairwise fun first second =>
    first.status = .completed → second.status = .completed →
      first.sourceHash ≠ second.sourceHash

instance (db : Db) : Decidable (ImportedOnce db) :=
  inferInstanceAs (Decidable (List.Pairwise _ _))

/-- The row is the converter's and carries the hash. -/
def Imported (row : ImportRow) (hash : String) : Prop :=
  row.status = .completed ∧ row.sourceHash = hash

theorem importedOnce_iff {db : Db} :
    ImportedOnce db ↔ db.imports.Pairwise fun first second =>
      ∀ hash, Imported first hash → ¬Imported second hash := by
  have same : ∀ first second : ImportRow,
      (first.status = .completed → second.status = .completed →
        first.sourceHash ≠ second.sourceHash) ↔
      ∀ hash, Imported first hash → ¬Imported second hash := by
    intro first second
    constructor
    · rintro different hash ⟨firstDone, rfl⟩ ⟨secondDone, equal⟩
      exact different firstDone secondDone equal.symm
    · intro exclusive firstDone secondDone equal
      exact exclusive _ ⟨firstDone, rfl⟩ ⟨secondDone, equal.symm⟩
  unfold ImportedOnce
  simp only [same]

theorem noRow_iff {db : Db} {hash : String} :
    NoRow db hash ↔ ∀ row ∈ db.imports, ¬Imported row hash := by
  simp [NoRow, Imported]

/-- A lookup that reached the server and found nothing saw no such row. -/
theorem noRow_of_getImportByHash {mariadb : Mariadb} {db : Db}
    {hash : String} (absent : db.getImportByHash mariadb hash true = none) :
    NoRow db hash := by
  intro row member _ same
  have unmatched := List.find?_eq_none.mp absent row member
  simp [same, mariadb.same_refl] at unmatched

namespace ProcessFile

/-- The hash of a pass between its lookup and its insert. -/
def Stage.pending : Stage → Option String
  | .exif srcHash => some srcHash
  | .allocate srcHash _ => some srcHash
  | .convert job => some job.srcHash
  | .clearConverted job => some job.srcHash
  | .hashOutput job => some job.srcHash
  | .insert record => some record.sourceHash
  | _ => none

section Window

variable {platform : Platform} {cfg : Config} {path : Path}
  {shared after : Shared} {stage stage' : Stage} {event : Event}

theorem Step.pending {hash : String}
    (step : Step platform cfg path shared stage event after stage')
    (pending : stage'.pending = some hash) :
    stage.pending = some hash ∨
      ∃ executed, stage = .lookup hash ∧ event = .lookup executed ∧
        shared.db.getImportByHash platform.mariadb hash executed = none := by
  cases step with
  | fresh absent =>
      cases pending
      exact .inr ⟨_, rfl, rfl, absent⟩
  | cacheHit =>
      rw [held_hashed Stage.pending rfl fun _ => rfl] at pending
      cases pending
  | hashOnly =>
      rw [held_hashed Stage.pending rfl fun _ => rfl] at pending
      cases pending
  | cacheStore =>
      rw [held_hashed Stage.pending rfl fun _ => rfl] at pending
      cases pending
  | insert => split at pending <;> cases pending
  | countFailure =>
      rw [held_ite_after Stage.pending rfl rfl rfl] at pending
      cases pending
  | moveDead =>
      rw [held_ite_after Stage.pending rfl rfl rfl] at pending
      cases pending
  | alert =>
      rw [held_after Stage.pending rfl rfl] at pending
      cases pending
  | exif => exact .inl pending
  | allocate => exact .inl pending
  | converted => exact .inl pending
  | clearConverted => exact .inl pending
  | hashOutput => exact .inl pending
  | _ => cases pending

end Window

end ProcessFile

section Deduplication

variable {n : Nat}

def pendingHash (world : World n) (thread : Fin n) : Option String :=
  heldBy ProcessFile.Stage.pending world thread

/-- A lookup that finds nothing has asked the server, or there is nothing to
find, and no thread is pending with its hash. -/
def Unraced (platform : Platform) (world : World n) : Action n → Prop
  | .pass thread (.lookup executed) =>
      match world.threads thread with
      | some ⟨_, .lookup srcHash⟩ =>
          world.shared.db.getImportByHash platform.mariadb srcHash
              executed = none →
            (executed = true ∨ NoRow world.shared.db srcHash) ∧
              ∀ other, pendingHash world other ≠ some srcHash
      | _ => True
  | _ => True

instance (platform : Platform) (world : World n) (action : Action n) :
    Decidable (Unraced platform world action) := by
  apply @Action.casesOn n _ action <;> intros <;>
    try exact instDecidableTrue
  rename_i thread event
  apply @ProcessFile.Event.casesOn _ event <;> intros <;>
    try exact instDecidableTrue
  dsimp only [Unraced]
  generalize world.threads thread = busy
  match busy with
  | none => exact instDecidableTrue
  | some ⟨_, stage⟩ =>
      apply @ProcessFile.Stage.casesOn _ stage <;> intros <;>
        dsimp only <;> infer_instance

variable {platform : Platform} {cfg : Config} {world after : World n}
  {action : Action n}

/-- Unraced lookups take fresh hashes only, so the tables have each content
once. -/
theorem deduplicated_step
    (exclusive : Exclusively ProcessFile.Stage.pending Imported world)
    (unraced : Unraced platform world action)
    (taken : step platform cfg world action = some after) :
    Exclusively ProcessFile.Stage.pending Imported after := by
  refine exclusive.step taken rfl ?_ (fun record => ⟨rfl, rfl⟩) ?_
  · rintro record db now token ⟨-, rfl⟩
    rfl
  · rintro thread event ⟨path, stage⟩ shared stage' token rfl busy passStep
      holds
    rcases passStep.pending holds with
      before | ⟨executed, rfl, rfl, missed⟩
    · exact .inl before
    · right
      simp only [Unraced, busy] at unraced
      obtain ⟨asked, alone⟩ := unraced missed
      refine ⟨noRow_iff.mp ?_, alone⟩
      rcases asked with rfl | absent
      · exact noRow_of_getImportByHash missed
      · exact absent

/-- Over any number of threads and any interleaving of their stages: when no
lookup is raced, no two rows of the converter carry one source hash in any
state passed. -/
theorem importedOnce_run (platform : Platform) (cfg : Config)
    (clock wall : Int) (fs : Fs) {db : Db} (once : ImportedOnce db)
    {actions : List (Action n)}
    (unraced : Along (step platform cfg) (Unraced platform)
      (World.initial clock wall fs db) actions) :
    Visits (step platform cfg) (fun world => ImportedOnce world.shared.db)
      (World.initial clock wall fs db) actions :=
  (visits_of_along (Exclusively ProcessFile.Stage.pending Imported)
    (fun _ _ _ exclusive unraced taken =>
      deduplicated_step exclusive unraced taken)
    (exclusively_initial clock wall fs (importedOnce_iff.mp once))
    unraced).mono fun _ exclusive => importedOnce_iff.mpr exclusive.once

def twoNames : World 2 :=
  .initial 0 (60 * nsPerSecond)
    (fun path =>
      if path = "/watch/DSC_0001.NEF" ∨ path = "/watch/DSC_0002.NEF" then
        some ⟨[1], 0⟩
      else none) {}

/-- The first name is imported, then the second filed as its duplicate. -/
def inTurn : List (Action 2) :=
  [.beginScan, .scanFile "DSC_0001.NEF", .scanFile "DSC_0002.NEF",
    .endScan, .cleanup] ++
    importing 0 "2024-05-01" ⟨[7], 0⟩ true ++ hashing 1 ++
    [.pass 1 .go, .pass 1 (.move .renamed), .pass 1 .go, .finish 1]

theorem importedOnce_inTurn :
    Visits (step photographs {}) (fun world => ImportedOnce world.shared.db)
        twoNames inTurn ∧
      ∃ world, run (step photographs {}) twoNames inTurn = some world ∧
        world.threads 1 = none ∧ world.shared.db.imports.length = 1 :=
  ⟨importedOnce_run photographs {} 0 (60 * nsPerSecond) _ (by decide)
    (by decide +kernel), exists_run_of_decide (by decide +kernel)⟩

def racing : List (Action 2) :=
  [.beginScan, .scanFile "DSC_0001.NEF", .scanFile "DSC_0002.NEF",
    .endScan, .cleanup] ++
    hashing 0 ++ hashing 1 ++ converting 0 "2024-05-01" ⟨[7], 0⟩ true ++
    converting 1 "2024-05-01" ⟨[7], 0⟩ true

/-- Two threads import one content: both inserts succeed. -/
theorem imported_twice :
    ∃ world,
      run (step photographs {}) twoNames racing = some world ∧
      world.shared.db.imports.map (fun row =>
        (row.sourcePath, row.sourceHash, row.status)) =
        [("/watch/DSC_0001.NEF", photographs.digest.sha256 [1], .completed),
          ("/watch/DSC_0002.NEF", photographs.digest.sha256 [1],
            .completed)] ∧
      ¬ImportedOnce world.shared.db :=
  exists_run_of_decide (by decide +kernel)

end Deduplication

end Worker

end RawImport
