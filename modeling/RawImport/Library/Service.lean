import RawImport.Lib.History
import RawImport.Library.Operations
import RawImport.Library.Registration
import RawImport.Worker.Machine

/-!
# The service as one transition system

The converter threads, the reconversion drain, the HTTP threads and the
start-up reconciliation write the same files and tables.  A round of the
drain loop and a `preview-updated` request are stage machines like a pass:
each stage is one database or file-system call.
-/

namespace RawImport

open PathText Transition

namespace Worker.ReconvertDrain

/-- Where the drain thread stands in `ReconvertDrain`. -/
inductive Stage where
  | wait
  | lookup (job : ReconversionJob)
  | convert (job : ReconversionJob) (rec : ImportRow)
  | hash (job : ReconversionJob) (rec : ImportRow)
  | updateHash (job : ReconversionJob) (rec : ImportRow) (h : String)
  | finish (job : ReconversionJob) (h : String) (status : ImportStatus)
  deriving DecidableEq, Repr

/-- How the call of a stage went. -/
inductive Event where
  | lookup (executed : Bool)
  | convert (engine converted : Bool) (output : Option File)
  | hash (opened : Bool)
  | updateHash (executed : Bool)
  | finish (executed : Bool) (now : String)
  deriving DecidableEq, Repr

def next (platform : Platform) (shared : Shared) :
    Stage → Event → Option (Shared × Stage)
  | .lookup job, .lookup executed =>
      match shared.db.getImportById job.importId executed with
      | some row => some (shared, .convert job row)
      | none => some (shared, .wait)
  | .convert job row, .convert engine converted output =>
      if engine then
        let produced := { shared with
          fs := ProcessFile.produce shared.fs row.outputPath output }
        if converted then some (produced, .hash job row)
        else some (produced, .finish job "" .failed)
      else some (shared, .wait)
  | .hash job row, .hash opened =>
      some (shared, .updateHash job row
        (sha256File platform.digest shared.fs row.outputPath opened))
  | .updateHash job row h, .updateHash executed =>
      some ({ shared with
        db := shared.db.updateOutputHash row.id h executed },
        .finish job h .completed)
  | .finish job h status, .finish executed now =>
      some ({ shared with
        db := shared.db.updateReconversion job.id h status executed now },
        .wait)
  | _, _ => none

/-- One stage that executes, one constructor a branch. -/
inductive Step (platform : Platform) (shared : Shared) :
    Stage → Event → Shared → Stage → Prop where
  | found {job : ReconversionJob} {executed : Bool} {row : ImportRow}
      (found : shared.db.getImportById job.importId executed = some row) :
      Step platform shared (.lookup job) (.lookup executed) shared
        (.convert job row)
  | unknown {job : ReconversionJob} {executed : Bool}
      (absent : shared.db.getImportById job.importId executed = none) :
      Step platform shared (.lookup job) (.lookup executed) shared .wait
  | noEngine {job : ReconversionJob} {row : ImportRow} {converted : Bool}
      {output : Option File} :
      Step platform shared (.convert job row)
        (.convert false converted output) shared .wait
  | convert {job : ReconversionJob} {row : ImportRow}
      {output : Option File} :
      Step platform shared (.convert job row) (.convert true true output)
        { shared with
          fs := ProcessFile.produce shared.fs row.outputPath output }
        (.hash job row)
  | notConverted {job : ReconversionJob} {row : ImportRow}
      {output : Option File} :
      Step platform shared (.convert job row) (.convert true false output)
        { shared with
          fs := ProcessFile.produce shared.fs row.outputPath output }
        (.finish job "" .failed)
  | hash {job : ReconversionJob} {row : ImportRow} {opened : Bool} :
      Step platform shared (.hash job row) (.hash opened) shared
        (.updateHash job row
          (sha256File platform.digest shared.fs row.outputPath opened))
  | updateHash {job : ReconversionJob} {row : ImportRow} {h : String}
      {executed : Bool} :
      Step platform shared (.updateHash job row h) (.updateHash executed)
        { shared with db := shared.db.updateOutputHash row.id h executed }
        (.finish job h .completed)
  | finish {job : ReconversionJob} {h : String} {status : ImportStatus}
      {executed : Bool} {now : String} :
      Step platform shared (.finish job h status) (.finish executed now)
        { shared with
          db := shared.db.updateReconversion job.id h status executed now }
        .wait

theorem step_of_next {platform : Platform} {shared after : Shared}
    {stage stage' : Stage} {event : Event}
    (result : next platform shared stage event = some (after, stage')) :
    Step platform shared stage event after stage' := by
  unfold next at result
  split at result
  · split at result
    · rename_i found
      cases result
      exact .found found
    · rename_i absent
      cases result
      exact .unknown absent
  · rename_i engine converted output
    cases engine with
    | false =>
        cases result
        exact .noEngine
    | true =>
        cases converted with
        | true =>
            cases result
            exact .convert
        | false =>
            cases result
            exact .notConverted
  · cases result
    exact .hash
  · cases result
    exact .updateHash
  · cases result
    exact .finish
  · cases result

/-- One event of a round that nothing interrupts. -/
def roundStep (platform : Platform) (state : Shared × Stage)
    (event : Event) : Option (Shared × Stage) :=
  next platform state.1 state.2 event

theorem round_reconvert (platform : Platform) (shared : Shared)
    (job : ReconversionJob) (call : ReconvertCall) :
    ∃ events, run (roundStep platform) (shared, .lookup job) events =
      some (reconvert platform shared job call, .wait) := by
  unfold reconvert
  cases found : shared.db.getImportById job.importId call.found with
  | none =>
      refine ⟨[.lookup call.found], ?_⟩
      simp [run_cons, roundStep, next, found]
  | some row =>
      cases engine : call.engine with
      | false =>
          refine ⟨[.lookup call.found, .convert false false none], ?_⟩
          simp [run_cons, roundStep, next, found]
      | true =>
          cases converted : call.converted with
          | false =>
              refine ⟨[.lookup call.found, .convert true false call.output,
                .finish call.jobUpdated call.now], ?_⟩
              simp [run_cons, roundStep, next, found]
          | true =>
              refine ⟨[.lookup call.found, .convert true true call.output,
                .hash call.opened, .updateHash call.hashUpdated,
                .finish call.jobUpdated call.now], ?_⟩
              simp [run_cons, roundStep, next, found]

end Worker.ReconvertDrain

namespace Api.PreviewUpdated

/-- Where a `preview-updated` request stands in its handler. -/
inductive Stage where
  | lookup (op : Path)
  | hash (op : Path) (r : ImportRow)
  | updateHash (op : Path) (r : ImportRow) (newHash : String)
  | record (r : ImportRow) (newHash : String)
  | respond (response : Response)
  deriving DecidableEq, Repr

inductive Event where
  | lookup (executed : Bool)
  | hash (opened : Bool)
  | updateHash (executed : Bool)
  | record (executed : Bool)
  deriving DecidableEq, Repr

/-- The handler with the `output_path` of the body. -/
def start (op : Path) : Stage :=
  if op = "" then .respond (failure 400 "missing-output_path")
  else .lookup op

def next (platform : Worker.Platform) (shared : Worker.Shared) :
    Stage → Event → Option (Worker.Shared × Stage)
  | .lookup op, .lookup executed =>
      match shared.db.getImportByOutputPath platform.mariadb op executed with
      | some r => some (shared, .hash op r)
      | none => some (shared, .respond (failure 404 "not-found"))
  | .hash op r, .hash opened =>
      let newHash := sha256File platform.digest shared.fs op opened
      if newHash = "" then
        some (shared, .respond (failure 500 "hash-failed"))
      else some (shared, .updateHash op r newHash)
  | .updateHash _ r newHash, .updateHash executed =>
      some ({ shared with
        db := shared.db.updateOutputHash r.id newHash executed },
        .record r newHash)
  | .record r newHash, .record executed =>
      some ({ shared with
        db := shared.db.recordPreviewEdit r.id "api-preview-updated"
          r.outputHash newHash 0 0 0 executed },
        .respond { status := 200, body := "\x7b\"status\":\"synced\"\x7d" })
  | _, _ => none

/-- One stage that executes, one constructor a branch. -/
inductive Step (platform : Worker.Platform) (shared : Worker.Shared) :
    Stage → Event → Worker.Shared → Stage → Prop where
  | found {op : Path} {executed : Bool} {r : ImportRow}
      (found : shared.db.getImportByOutputPath platform.mariadb op executed =
        some r) :
      Step platform shared (.lookup op) (.lookup executed) shared (.hash op r)
  | unknown {op : Path} {executed : Bool}
      (absent : shared.db.getImportByOutputPath platform.mariadb op executed =
        none) :
      Step platform shared (.lookup op) (.lookup executed) shared
        (.respond (failure 404 "not-found"))
  | hash {op : Path} {r : ImportRow} {opened : Bool}
      (readable : sha256File platform.digest shared.fs op opened ≠ "") :
      Step platform shared (.hash op r) (.hash opened) shared
        (.updateHash op r (sha256File platform.digest shared.fs op opened))
  | unreadable {op : Path} {r : ImportRow} {opened : Bool}
      (empty : sha256File platform.digest shared.fs op opened = "") :
      Step platform shared (.hash op r) (.hash opened) shared
        (.respond (failure 500 "hash-failed"))
  | updateHash {op : Path} {r : ImportRow} {newHash : String}
      {executed : Bool} :
      Step platform shared (.updateHash op r newHash) (.updateHash executed)
        { shared with
          db := shared.db.updateOutputHash r.id newHash executed }
        (.record r newHash)
  | record {r : ImportRow} {newHash : String} {executed : Bool} :
      Step platform shared (.record r newHash) (.record executed)
        { shared with
          db := shared.db.recordPreviewEdit r.id "api-preview-updated"
            r.outputHash newHash 0 0 0 executed }
        (.respond { status := 200, body := "\x7b\"status\":\"synced\"\x7d" })

theorem step_of_next {platform : Worker.Platform}
    {shared after : Worker.Shared} {stage stage' : Stage} {event : Event}
    (result : next platform shared stage event = some (after, stage')) :
    Step platform shared stage event after stage' := by
  unfold next at result
  split at result
  · split at result
    · rename_i found
      cases result
      exact .found found
    · rename_i absent
      cases result
      exact .unknown absent
  · simp only at result
    split at result
    · rename_i empty
      cases result
      exact .unreadable empty
    · rename_i readable
      cases result
      exact .hash readable
  · cases result
    exact .updateHash
  · cases result
    exact .record
  · cases result

def requestStep (platform : Worker.Platform)
    (state : Worker.Shared × Stage) (event : Event) :
    Option (Worker.Shared × Stage) :=
  next platform state.1 state.2 event

theorem request_previewUpdated (platform : Worker.Platform)
    (shared : Worker.Shared) (op : Path) (call : PreviewCall) :
    ∃ events, run (requestStep platform) (shared, start op) events =
      some ((previewUpdated platform shared op call).1,
        .respond (previewUpdated platform shared op call).2) := by
  unfold previewUpdated start
  by_cases missing : op = ""
  · exact ⟨[], by simp [missing]⟩
  · simp only [if_neg missing]
    cases found : shared.db.getImportByOutputPath platform.mariadb op
        call.found with
    | none =>
        refine ⟨[.lookup call.found], ?_⟩
        simp [run_cons, requestStep, next, found]
    | some r =>
        by_cases failed :
            sha256File platform.digest shared.fs op call.opened = ""
        · refine ⟨[.lookup call.found, .hash call.opened], ?_⟩
          simp [run_cons, requestStep, next, found, failed]
        · refine ⟨[.lookup call.found, .hash call.opened,
            .updateHash call.hashUpdated, .record call.recorded], ?_⟩
          simp [run_cons, requestStep, next, found, failed]

end Api.PreviewUpdated

/-- The worker, the reconversion queue with its drain, and the requests of
`m` HTTP threads. -/
structure Service (n m : Nat) where
  world : Worker.World n
  reconverts : List ReconversionJob := []
  drain : Worker.ReconvertDrain.Stage := .wait
  requests : Fin m → Option Api.PreviewUpdated.Stage := fun _ => none

namespace Service

inductive Action (n m : Nat) where
  | worker (action : Worker.Action n)
  | queueReconvert (job : ReconversionJob)
  | takeReconvert
  | drain (event : Worker.ReconvertDrain.Event)
  | request (thread : Fin m) (op : Path)
  | preview (thread : Fin m) (event : Api.PreviewUpdated.Event)
  | respond (thread : Fin m)
  | reconcileFile (cwd root : Path) (entry : Reconcile.Entry)
  | reserve (outcome : Db.AllocateOutcome)

variable {n m : Nat}

/-- A service over any files and tables, before its first step. -/
def initial (clock wall : Int) (fs : Fs) (db : Db) : Service n m :=
  { world := .initial clock wall fs db }

def withShared (service : Service n m) (shared : Worker.Shared) :
    Service n m :=
  { service with world := service.world.withShared shared }

def setRequest (service : Service n m) (thread : Fin m)
    (stage : Option Api.PreviewUpdated.Stage) : Service n m :=
  { service with
    requests := Function.update service.requests thread stage }

/-- The files and tables that everything shares. -/
def shared (service : Service n m) : Worker.Shared :=
  service.world.shared

def context (platform : Worker.Platform) (service : Service n m)
    (cwd : Path) : Reconcile.Context :=
  { cwd := cwd
    digest := platform.digest
    mariadb := platform.mariadb
    fs := service.shared.fs }

/-- One step of the worker, the drain, a request or the reconciliation. -/
def step (platform : Worker.Platform) (cfg : Config)
    (service : Service n m) : Action n m → Option (Service n m)
  | .worker action =>
      (Worker.step platform cfg service.world action).map fun world =>
        { service with world := world }
  | .queueReconvert job =>
      some { service with reconverts := service.reconverts ++ [job] }
  | .takeReconvert =>
      match service.drain, service.reconverts with
      | .wait, job :: rest =>
          some { service with reconverts := rest, drain := .lookup job }
      | _, _ => none
  | .drain event =>
      (Worker.ReconvertDrain.next platform service.shared service.drain
        event).map fun result =>
          { service.withShared result.1 with drain := result.2 }
  | .request thread op =>
      match service.requests thread with
      | none =>
          some (service.setRequest thread (some (Api.PreviewUpdated.start
            op)))
      | some _ => none
  | .preview thread event =>
      (service.requests thread).bind fun stage =>
        (Api.PreviewUpdated.next platform service.shared stage event).map
          fun result =>
            (service.withShared result.1).setRequest thread (some result.2)
  | .respond thread =>
      match service.requests thread with
      | some (.respond _) => some (service.setRequest thread none)
      | _ => none
  | .reconcileFile cwd root entry =>
      some (service.withShared { service.shared with
        db := (Reconcile.visitFile (service.context platform cwd)
          { db := service.shared.db } (root, entry)).db })
  | .reserve outcome =>
      some (service.withShared { service.shared with
        db := (service.shared.db.allocateSequence platform.mariadb
          outcome).1 })

@[simp] theorem withShared_shared (service : Service n m)
    (shared : Worker.Shared) : (service.withShared shared).shared = shared :=
  rfl

@[simp] theorem setRequest_shared (service : Service n m) (thread : Fin m)
    (stage : Option Api.PreviewUpdated.Stage) :
    (service.setRequest thread stage).shared = service.shared :=
  rfl

@[simp] theorem setRequest_same (service : Service n m) (thread : Fin m)
    (stage : Option Api.PreviewUpdated.Stage) :
    (service.setRequest thread stage).requests thread = stage := by
  simp [setRequest]

theorem setRequest_other (service : Service n m) {thread other : Fin m}
    (stage : Option Api.PreviewUpdated.Stage) (different : other ≠ thread) :
    (service.setRequest thread stage).requests other =
      service.requests other := by
  simp [setRequest, different]

/-! ## What a step changes -/

section Inversion

variable {platform : Worker.Platform} {cfg : Config}
  {service after : Service n m} {action : Action n m}

theorem takeReconvert_cases
    (taken : step platform cfg service .takeReconvert = some after) :
    ∃ job rest, service.drain = .wait ∧ service.reconverts = job :: rest ∧
      after = { service with reconverts := rest, drain := .lookup job } := by
  simp only [step] at taken
  split at taken
  · rename_i job rest waiting queued
    cases taken
    exact ⟨job, rest, waiting, queued, rfl⟩
  · cases taken

theorem drain_result {event : Worker.ReconvertDrain.Event}
    (taken : step platform cfg service (.drain event) = some after) :
    ∃ next stage, Worker.ReconvertDrain.Step platform service.shared
        service.drain event next stage ∧
      after = { service.withShared next with drain := stage } := by
  obtain ⟨⟨next, stage⟩, drained, equality⟩ :=
    Option.map_eq_some_iff.mp taken
  exact ⟨next, stage, Worker.ReconvertDrain.step_of_next drained,
    equality.symm⟩

theorem request_cases {thread : Fin m} {op : Path}
    (taken : step platform cfg service (.request thread op) = some after) :
    after = service.setRequest thread
      (some (Api.PreviewUpdated.start op)) := by
  simp only [step] at taken
  split at taken
  · cases taken
    rfl
  · cases taken

theorem preview_result {thread : Fin m} {event : Api.PreviewUpdated.Event}
    (taken : step platform cfg service (.preview thread event) =
      some after) :
    ∃ stage next stage', service.requests thread = some stage ∧
      Api.PreviewUpdated.Step platform service.shared stage event next
        stage' ∧
      after = (service.withShared next).setRequest thread (some stage') := by
  obtain ⟨stage, busy, result⟩ := Option.bind_eq_some_iff.mp taken
  obtain ⟨⟨next, stage'⟩, handled, equality⟩ :=
    Option.map_eq_some_iff.mp result
  exact ⟨stage, next, stage', busy,
    Api.PreviewUpdated.step_of_next handled, equality.symm⟩

theorem respond_cases {thread : Fin m}
    (taken : step platform cfg service (.respond thread) = some after) :
    after = service.setRequest thread none := by
  simp only [step] at taken
  split at taken
  · cases taken
    rfl
  · cases taken

theorem step_threads
    (taken : step platform cfg service action = some after) :
    (∃ workerAction, action = .worker workerAction ∧
      Worker.step platform cfg service.world workerAction =
        some after.world) ∨
    ((∀ workerAction, action ≠ .worker workerAction) ∧
      after.world.threads = service.world.threads) := by
  cases action with
  | worker workerAction =>
      obtain ⟨world, workerTaken, rfl⟩ := Option.map_eq_some_iff.mp taken
      exact .inl ⟨workerAction, rfl, workerTaken⟩
  | takeReconvert =>
      obtain ⟨job, rest, -, -, rfl⟩ := takeReconvert_cases taken
      exact .inr ⟨nofun, rfl⟩
  | drain event =>
      obtain ⟨next, stage, -, rfl⟩ := drain_result taken
      exact .inr ⟨nofun, rfl⟩
  | request thread op =>
      rw [request_cases taken]
      exact .inr ⟨nofun, rfl⟩
  | preview thread event =>
      obtain ⟨stage, next, stage', -, -, rfl⟩ := preview_result taken
      exact .inr ⟨nofun, rfl⟩
  | respond thread =>
      rw [respond_cases taken]
      exact .inr ⟨nofun, rfl⟩
  | _ =>
      cases taken
      exact .inr ⟨nofun, rfl⟩

/-- The queue changes by `QueueReconvert` and by the drain thread. -/
theorem step_reconverts
    (taken : step platform cfg service action = some after) :
    after.reconverts = service.reconverts ∨
    (∃ job, action = .queueReconvert job) ∨
    (∃ job, service.reconverts = job :: after.reconverts) := by
  cases action with
  | worker workerAction =>
      obtain ⟨world, -, rfl⟩ := Option.map_eq_some_iff.mp taken
      exact .inl rfl
  | queueReconvert job => exact .inr (.inl ⟨job, rfl⟩)
  | takeReconvert =>
      obtain ⟨job, rest, -, queued, rfl⟩ := takeReconvert_cases taken
      exact .inr (.inr ⟨job, queued⟩)
  | drain event =>
      obtain ⟨next, stage, -, rfl⟩ := drain_result taken
      exact .inl rfl
  | request thread op =>
      rw [request_cases taken]
      exact .inl rfl
  | preview thread event =>
      obtain ⟨stage, next, stage', -, -, rfl⟩ := preview_result taken
      exact .inl rfl
  | respond thread =>
      rw [respond_cases taken]
      exact .inl rfl
  | _ =>
      cases taken
      exact .inl rfl

theorem step_drain
    (taken : step platform cfg service action = some after) :
    ((∀ event, action ≠ .drain event) ∧ after.drain = service.drain) ∨
    (∃ job, after.drain = .lookup job) ∨
    (∃ event next, action = .drain event ∧
      Worker.ReconvertDrain.Step platform service.shared service.drain event
        next after.drain) := by
  cases action with
  | worker workerAction =>
      obtain ⟨world, -, rfl⟩ := Option.map_eq_some_iff.mp taken
      exact .inl ⟨nofun, rfl⟩
  | takeReconvert =>
      obtain ⟨job, rest, -, -, rfl⟩ := takeReconvert_cases taken
      exact .inr (.inl ⟨job, rfl⟩)
  | drain event =>
      obtain ⟨next, stage, drained, rfl⟩ := drain_result taken
      exact .inr (.inr ⟨event, next, rfl, drained⟩)
  | request thread op =>
      rw [request_cases taken]
      exact .inl ⟨nofun, rfl⟩
  | preview thread event =>
      obtain ⟨stage, next, stage', -, -, rfl⟩ := preview_result taken
      exact .inl ⟨nofun, rfl⟩
  | respond thread =>
      rw [respond_cases taken]
      exact .inl ⟨nofun, rfl⟩
  | _ =>
      cases taken
      exact .inl ⟨nofun, rfl⟩

theorem step_requests (thread : Fin m)
    (taken : step platform cfg service action = some after) :
    after.requests thread = service.requests thread ∨
    after.requests thread = none ∨
    (∃ op, after.requests thread =
      some (Api.PreviewUpdated.start op)) ∨
    (∃ stage event next stage', service.requests thread = some stage ∧
      Api.PreviewUpdated.Step platform service.shared stage event next
        stage' ∧ after.requests thread = some stage') := by
  cases action with
  | worker workerAction =>
      obtain ⟨world, -, rfl⟩ := Option.map_eq_some_iff.mp taken
      exact .inl rfl
  | takeReconvert =>
      obtain ⟨job, rest, -, -, rfl⟩ := takeReconvert_cases taken
      exact .inl rfl
  | drain event =>
      obtain ⟨next, stage, -, rfl⟩ := drain_result taken
      exact .inl rfl
  | request other op =>
      rw [request_cases taken]
      by_cases same : thread = other
      · subst same
        exact .inr (.inr (.inl ⟨op, setRequest_same _ _ _⟩))
      · exact .inl (setRequest_other _ _ same)
  | preview other event =>
      obtain ⟨stage, next, stage', busy, handled, rfl⟩ :=
        preview_result taken
      by_cases same : thread = other
      · subst same
        exact .inr (.inr (.inr ⟨stage, event, next, stage', busy, handled,
          setRequest_same _ _ _⟩))
      · exact .inl (setRequest_other _ _ same)
  | respond other =>
      rw [respond_cases taken]
      by_cases same : thread = other
      · subst same
        exact .inr (.inl (setRequest_same _ _ _))
      · exact .inl (setRequest_other _ _ same)
  | _ =>
      cases taken
      exact .inl rfl

end Inversion

theorem visitFile_db (context : Reconcile.Context)
    {scan scan' : Reconcile.Scan} (same : scan'.db = scan.db)
    (visit : Path × Reconcile.Entry) :
    (Reconcile.visitFile context scan' visit).db =
      (Reconcile.visitFile context scan visit).db := by
  unfold Reconcile.visitFile
  split
  · exact same
  · simp only [same]
    split <;> rfl

theorem run_reconcileFiles (platform : Worker.Platform) (cfg : Config)
    (cwd : Path) (visits : List (Path × Reconcile.Entry))
    (service : Service n m) (scan : Reconcile.Scan)
    (sameDb : scan.db = service.shared.db) :
    run (step platform cfg) service
        (visits.map fun visit => .reconcileFile cwd visit.1 visit.2) =
      some (service.withShared { service.shared with
        db := (visits.foldl
          (Reconcile.visitFile (service.context platform cwd)) scan).db }) := by
  induction visits generalizing service scan with
  | nil =>
      simp only [List.map_nil, run_nil, List.foldl_nil, sameDb]
      rfl
  | cons visit visits ih =>
      rw [List.map_cons, run_cons, List.foldl_cons]
      simp only [step, Option.bind_some]
      have db : (Reconcile.visitFile (service.context platform cwd) scan
            visit).db =
          (Reconcile.visitFile (service.context platform cwd)
            { db := service.shared.db } visit).db :=
        visitFile_db _ sameDb visit
      exact ih (service.withShared { service.shared with
        db := (Reconcile.visitFile (service.context platform cwd)
          { db := service.shared.db } visit).db }) _ db

end Service

end RawImport
