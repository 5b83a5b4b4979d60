import RawImport.Lib.AppendOnly
import RawImport.Library.FailedHash
import RawImport.Store.Client

/-!
# The catalogue

`imports` while everything runs: the converter threads, the drain, the
requests, the reconciliation and the rotation daemon.  Rows come behind the
others and change in two columns, so what `/api/v1/stats` counts never goes
down.
-/

namespace RawImport

namespace Catalogue

open PathText Transition Service

variable {n m : Nat}

/-- A step of the service or an `UpdateOrientation` of the rotation daemon. -/
inductive Action (n m : Nat) where
  | service (action : Service.Action n m)
  | orient (id orientation : Int) (executed : Bool)

def step (platform : Worker.Platform) (cfg : Config)
    (service : Service n m) : Action n m → Option (Service n m)
  | .service action => Service.step platform cfg service action
  | .orient id orientation executed =>
      some (service.withShared { service.shared with
        db := service.shared.db.updateOrientation id orientation executed })

/-- The row is the same but for its output hash and its orientation. -/
def SameImport (row next : ImportRow) : Prop :=
  next = { row with
    outputHash := next.outputHash
    orientation := next.orientation }

theorem SameImport.refl (row : ImportRow) : SameImport row row :=
  rfl

theorem SameImport.trans {first second third : ImportRow}
    (before : SameImport first second) (after : SameImport second third) :
    SameImport first third := by
  unfold SameImport at before after ⊢
  rw [after, before]

theorem SameImport.status {row next : ImportRow}
    (same : SameImport row next) : next.status = row.status := by
  rw [same]

def Stored (row : ImportRow) : Prop :=
  row.status = .completed ∨ row.status = .legacy

theorem Stored.same {row next : ImportRow} (stored : Stored row)
    (same : SameImport row next) : Stored next := by
  unfold Stored
  rw [same.status]
  exact stored

def countedRows (db : Db) (status : Option ImportStatus) : Nat :=
  db.imports.countP fun row => status.all (row.status == ·)

def Counting (client : Client Db) : Prop :=
  ∀ status db, client.execute (.countImports status) db =
    ({ rows := [[(toString (countedRows db status)).toList]] }, db)

/-- The reading of a later state. -/
structure Later (before after : Stats) : Prop where
  total : before.total ≤ after.total
  completed : before.completed ≤ after.completed
  failed : after.failed = before.failed
  queueDepth : after.queueDepth = 0

theorem count_eq {client : Client Db} (counting : Counting client)
    (status : Option ImportStatus) (db : Db) :
    Store.count client status db =
      (min (countedRows db status : Int) (2 ^ 63 - 1), db) := by
  unfold Store.count Store.execSelect
  rw [counting]
  simp only [if_true, Cxx.strtoll_nat]

theorem getStats_eq {client : Client Db} (counting : Counting client)
    (db : Db) :
    (Store.getStats client db).1 =
      { total := min (countedRows db none : Int) (2 ^ 63 - 1)
        completed :=
          min (countedRows db (some .completed) : Int) (2 ^ 63 - 1)
        failed := min (countedRows db (some .failed) : Int) (2 ^ 63 - 1) } := by
  unfold Store.getStats
  simp only [count_eq counting]

theorem stats_later {client : Client Db} (counting : Counting client)
    {db next : Db}
    (grows : Grows SameImport Stored db.imports next.imports) :
    Later (Store.getStats client db).1 (Store.getStats client next).1 := by
  have total : countedRows db none ≤ countedRows next none :=
    grows.countP_le fun _ _ _ _ => rfl
  have completed : countedRows db (some .completed) ≤
      countedRows next (some .completed) := by
    apply grows.countP_le
    intro row later same here
    rw [same.status]
    exact here
  have failed : countedRows next (some .failed) =
      countedRows db (some .failed) := by
    apply grows.countP_eq
    · intro row later same
      rw [same.status]
    · intro row stored
      rcases stored with completed | legacy
      · rw [completed]
        rfl
      · rw [legacy]
        rfl
  rw [getStats_eq counting, getStats_eq counting]
  exact
    { total := min_le_min_right _ (Int.ofNat_le.mpr total)
      completed := min_le_min_right _ (Int.ofNat_le.mpr completed)
      failed := by rw [failed]
      queueDepth := rfl }

section Operations

variable {db : Db}

theorem grows_of_same {next : Db} (same : next.imports = db.imports) :
    Grows SameImport Stored db.imports next.imports := by
  rw [same]
  exact .refl SameImport.refl _

theorem grows_map {next : Db} (change : ImportRow → ImportRow)
    (changes : ∀ row, SameImport row (change row))
    (rows : next.imports = db.imports.map change) :
    Grows SameImport Stored db.imports next.imports := by
  have grows : Grows SameImport Stored db.imports
      (db.imports.map change ++ []) :=
    .map_append change changes (List.forall_mem_nil _)
  rw [rows]
  rwa [List.append_nil] at grows

theorem grows_updateOutputHash (id : Int) (newHash : String)
    (executed : Bool) :
    Grows SameImport Stored db.imports
      (db.updateOutputHash id newHash executed).imports := by
  unfold Db.updateOutputHash
  split
  · refine grows_map _ ?_ rfl
    intro row
    split
    · rfl
    · exact .refl row
  · exact grows_of_same rfl

theorem grows_updateOrientation (id orientation : Int) (executed : Bool) :
    Grows SameImport Stored db.imports
      (db.updateOrientation id orientation executed).imports := by
  unfold Db.updateOrientation
  split
  · refine grows_map _ ?_ rfl
    intro row
    split
    · rfl
    · exact .refl row
  · exact grows_of_same rfl

theorem grows_insertImport (mariadb : Mariadb) {record : ImportRecord}
    (stored : record.status = .completed ∨ record.status = .legacy)
    (executed : Bool) (now : String) :
    Grows SameImport Stored db.imports
      (db.insertImport mariadb record executed now).1.imports := by
  rcases Db.insertImport_cases mariadb db record executed now with
    ⟨-, -, after⟩ | ⟨-, after⟩
  · rw [after]
    have grows : Grows SameImport Stored db.imports
        (db.imports.map id ++ [db.importRow record now]) :=
      .map_append id SameImport.refl (List.forall_mem_singleton.mpr stored)
    rwa [List.map_id] at grows
  · rw [after]
    exact grows_of_same rfl

theorem grows_visitFile (context : Reconcile.Context) (root : Path)
    (entry : Reconcile.Entry) :
    Grows SameImport Stored db.imports
      (Reconcile.visitFile context { db := db } (root, entry)).db.imports := by
  unfold Reconcile.visitFile
  split
  · exact grows_of_same rfl
  · simp only
    split
    · exact grows_of_same rfl
    · exact grows_insertImport _ (.inr rfl) _ _

end Operations

/-- The record that a pass inserts is a completed one. -/
def Completes (_ : Db) : Worker.ProcessFile.Stage → Prop
  | .insert record => record.status = .completed
  | _ => True

theorem completes_hashed (db : Db) (srcHash : String) :
    Completes db (Worker.ProcessFile.hashed srcHash) := by
  unfold Worker.ProcessFile.hashed
  split <;> trivial

theorem completes_after (db : Db) (failure : Worker.ProcessFile.Failure) :
    Completes db failure.after := by
  cases failure <;> trivial

theorem completes_pass {platform : Worker.Platform} {cfg : Config}
    {path : Path} {shared next : Worker.Shared}
    {stage stage' : Worker.ProcessFile.Stage}
    {event : Worker.ProcessFile.Event}
    (step : Worker.ProcessFile.Step platform cfg path shared stage event
      next stage') : Completes next.db stage' := by
  cases step with
  | cacheHit => exact completes_hashed _ _
  | hashOnly => exact completes_hashed _ _
  | cacheStore => exact completes_hashed _ _
  | hashOutput => rfl
  | insert =>
      split
      · trivial
      · trivial
  | countFailure =>
      split
      · trivial
      · exact completes_after _ _
  | moveDead =>
      split
      · trivial
      · exact completes_after _ _
  | alert => exact completes_after _ _
  | _ => trivial

section Runs

variable {platform : Worker.Platform} {cfg : Config}
  {service after : Service n m}

theorem completes_step {action : Action n m}
    (holds : service.world.Passes Completes)
    (taken : step platform cfg service action = some after) :
    after.world.Passes Completes := by
  cases action with
  | orient id orientation executed =>
      cases taken
      exact holds
  | service action =>
      rcases step_threads taken with ⟨workerAction, -, workerTaken⟩ |
        ⟨-, threads⟩
      · apply holds.step workerTaken
        · intro db
          trivial
        · intro thread event pass shared stage _ _ passStep _
          exact completes_pass passStep
        · intro thread event pass shared stage _ _ _ other otherPass _ _ kept
          exact kept
      · intro thread pass busy
        rw [threads] at busy
        exact holds thread pass busy

theorem grows_pass {path : Path} {shared next : Worker.Shared}
    {stage stage' : Worker.ProcessFile.Stage}
    {event : Worker.ProcessFile.Event}
    (completes : Completes shared.db stage)
    (step : Worker.ProcessFile.Step platform cfg path shared stage event
      next stage') :
    Grows SameImport Stored shared.db.imports next.db.imports := by
  cases step with
  | insert => exact grows_insertImport _ (.inl completes) _ _
  | noSequence => exact grows_of_same (by simp)
  | allocate => exact grows_of_same (by simp)
  | alert => exact grows_of_same (by simp)
  | _ => exact grows_of_same rfl

theorem grows_drain {event : Worker.ReconvertDrain.Event}
    {shared next : Worker.Shared}
    {stage stage' : Worker.ReconvertDrain.Stage}
    (step : Worker.ReconvertDrain.Step platform shared stage event next
      stage') :
    Grows SameImport Stored shared.db.imports next.db.imports := by
  cases step with
  | updateHash => exact grows_updateOutputHash _ _ _
  | finish => exact grows_of_same (by simp)
  | _ => exact grows_of_same rfl

theorem grows_preview {event : Api.PreviewUpdated.Event}
    {shared next : Worker.Shared} {stage stage' : Api.PreviewUpdated.Stage}
    (step : Api.PreviewUpdated.Step platform shared stage event next
      stage') :
    Grows SameImport Stored shared.db.imports next.db.imports := by
  cases step with
  | updateHash => exact grows_updateOutputHash _ _ _
  | record => exact grows_of_same (by simp)
  | _ => exact grows_of_same rfl

theorem grows_service {action : Service.Action n m}
    (holds : service.world.Passes Completes)
    (taken : Service.step platform cfg service action = some after) :
    Grows SameImport Stored service.shared.db.imports
      after.shared.db.imports := by
  cases action with
  | worker action =>
      obtain ⟨world, workerTaken, rfl⟩ := Option.map_eq_some_iff.mp taken
      rcases Worker.step_cases workerTaken with ⟨-, same, -⟩ |
        ⟨thread, event, pass, shared, stage, -, busy, passStep, rfl⟩
      · exact grows_of_same (congrArg Db.imports same)
      · exact grows_pass (holds thread pass busy) passStep
  | drain event =>
      obtain ⟨next, stage, drained, rfl⟩ := drain_result taken
      exact grows_drain drained
  | preview thread event =>
      obtain ⟨stage, next, stage', -, handled, rfl⟩ := preview_result taken
      exact grows_preview handled
  | reconcileFile cwd root entry =>
      cases taken
      exact grows_visitFile _ _ _
  | reserve outcome =>
      cases taken
      exact grows_of_same (by simp)
  | queueReconvert job =>
      cases taken
      exact grows_of_same rfl
  | takeReconvert =>
      obtain ⟨job, rest, -, -, rfl⟩ := takeReconvert_cases taken
      exact grows_of_same rfl
  | request thread op =>
      rw [request_cases taken]
      exact grows_of_same rfl
  | respond thread =>
      rw [respond_cases taken]
      exact grows_of_same rfl

theorem grows_step {action : Action n m}
    (holds : service.world.Passes Completes)
    (taken : step platform cfg service action = some after) :
    Grows SameImport Stored service.shared.db.imports
      after.shared.db.imports := by
  cases action with
  | service action => exact grows_service holds taken
  | orient id orientation executed =>
      cases taken
      exact grows_updateOrientation id orientation executed

/-- Between any two states of any run of the service and the rotation daemon:
every row of `imports` is where it was and the same but for its output hash
and orientation, the rows behind them are completed or legacy ones, and the
statistics have not gone down. -/
theorem catalogue_run (platform : Worker.Platform) (cfg : Config)
    (clock wall : Int) (fs : Fs) (db : Db) (before actions : List (Action n m))
    {middle final : Service n m} {client : Client Db}
    (counting : Counting client)
    (reached : run (step platform cfg)
      (Service.initial (n := n) (m := m) clock wall fs db) before =
        some middle)
    (later : run (step platform cfg) middle actions = some final) :
    Grows SameImport Stored middle.shared.db.imports
        final.shared.db.imports ∧
      Later (Store.getStats client middle.shared.db).1
        (Store.getStats client final.shared.db).1 := by
  have start : (Service.initial (n := n) (m := m) clock wall fs
      db).world.Passes Completes :=
    Worker.World.passes_initial _ _ _ _ _
  have visits : Visits (step platform cfg)
      (fun service : Service n m => service.world.Passes Completes)
      (Service.initial clock wall fs db) before :=
    visits_of_preserved _
      (fun _ _ _ kept taken => completes_step kept taken) start before
  have holds : middle.world.Passes Completes := visits.final reached
  have grows := grows_of_run
    (fun service : Service n m => service.world.Passes Completes)
    (fun service => service.shared.db.imports) SameImport.refl
    (fun _ _ _ => SameImport.trans) (fun _ _ => Stored.same)
    (fun _ _ _ kept taken => completes_step kept taken)
    (fun _ _ _ kept taken => grows_step kept taken) holds later
  exact ⟨grows, stats_later counting grows⟩

/-- A connection that answers the count queries. -/
def counter : Client Db where
  execute
    | .countImports status, db =>
        ({ rows := [[(toString (countedRows db status)).toList]] }, db)
    | _, db => ({}, db)
  ping db := (true, db)

/-- One photograph is imported and then turned. -/
def importedAndTurned : List (Action 1 0) :=
  (Worker.scanning "DSC_0001.NEF" ++
    Worker.importing 0 "2024-05-03" ⟨[7], 0⟩ true).map
      (fun action => .service (.worker action)) ++ [.orient 1 6 true]

theorem catalogue_run_importedAndTurned :
    ∃ final, run (step Worker.photographs {})
        (Service.initial 0 (60 * Worker.nsPerSecond)
          (Worker.onePhotograph 1).shared.fs {}) importedAndTurned =
            some final ∧
      (Store.getStats counter final.shared.db).1.completed = 1 ∧
      Later (Store.getStats counter {}).1
        (Store.getStats counter final.shared.db).1 := by
  obtain ⟨final, reached, completed⟩ : ∃ final,
      run (step Worker.photographs {})
        (Service.initial 0 (60 * Worker.nsPerSecond)
          (Worker.onePhotograph 1).shared.fs {}) importedAndTurned =
            some final ∧
      (Store.getStats counter final.shared.db).1.completed = 1 :=
    exists_run_of_decide (by decide +kernel)
  exact ⟨final, reached, completed, (catalogue_run Worker.photographs {} 0
    (60 * Worker.nsPerSecond) (Worker.onePhotograph 1).shared.fs {} []
    importedAndTurned (fun _ _ => rfl) rfl reached).2⟩

end Runs

end Catalogue

end RawImport
