import RawImport.Lib.Run
import RawImport.Worker.ProcessFile

/-!
# Operations on the library

Four code paths rewrite the DNG files of the library: the converter, the
reconversion drain, the rotation manager and an external re-embed announced
through the API.  Here each of them runs to its end as one operation on the
files and the tables.
-/

namespace RawImport

open PathText Transition

/-- How the calls of one reconversion went. -/
structure ReconvertCall where
  engine : Bool := true
  found : Bool := true
  converted : Bool := true
  output : Option File
  opened : Bool := true
  hashUpdated : Bool := true
  jobUpdated : Bool := true
  now : String := ""
  deriving DecidableEq, Repr

/-- One job of `ReconvertDrain`. -/
def Worker.reconvert (platform : Worker.Platform) (shared : Worker.Shared)
    (job : ReconversionJob) (call : ReconvertCall) : Worker.Shared :=
  match shared.db.getImportById job.importId call.found with
  | none => shared
  | some row =>
      if call.engine then
        let fs := Worker.ProcessFile.produce shared.fs row.outputPath
          call.output
        if call.converted then
          let h := sha256File platform.digest fs row.outputPath call.opened
          { shared with
            fs := fs
            db := (shared.db.updateOutputHash row.id h
              call.hashUpdated).updateReconversion job.id h .completed
                call.jobUpdated call.now }
        else
          { shared with
            fs := fs
            db := shared.db.updateReconversion job.id "" .failed
              call.jobUpdated call.now }
      else shared

namespace Api

structure Response where
  status : Nat
  body : String
  deriving DecidableEq, Repr

def failure (status : Nat) (error : String) : Response :=
  { status := status, body := "\x7b\"error\":\"" ++ error ++ "\"\x7d" }

/-- How the calls behind one `preview-updated` request went. -/
structure PreviewCall where
  found : Bool := true
  opened : Bool := true
  hashUpdated : Bool := true
  recorded : Bool := true
  deriving DecidableEq, Repr

/-- `POST /api/v1/imports/by-path/preview-updated`. -/
def previewUpdated (platform : Worker.Platform) (shared : Worker.Shared)
    (op : Path) (call : PreviewCall) : Worker.Shared × Response :=
  if op = "" then (shared, failure 400 "missing-output_path")
  else
    match shared.db.getImportByOutputPath platform.mariadb op call.found with
    | none => (shared, failure 404 "not-found")
    | some r =>
        let newHash := sha256File platform.digest shared.fs op call.opened
        if newHash = "" then (shared, failure 500 "hash-failed")
        else
          ({ shared with
              db := (shared.db.updateOutputHash r.id newHash
                call.hashUpdated).recordPreviewEdit r.id
                  "api-preview-updated" r.outputHash newHash 0 0 0
                  call.recorded },
            { status := 200, body := "\x7b\"status\":\"synced\"\x7d" })

end Api

namespace Rotation

structure PendingRot where
  orientation : Int := 1
  dngPath : Path
  clientId : String
  deriving DecidableEq, Repr

/-- How the calls of one rotation went: the lock, `exiftool` with the file it
leaves, and the statement. -/
structure RotateCall where
  acquired : Bool := true
  succeeded : Bool := true
  output : Option File
  updated : Bool := true
  deriving DecidableEq, Repr

/-- `exiftool` on the DNG under the lock of its row, and the statement when
`update` says so. -/
def rotate (shared : Worker.Shared) (importId : Int) (rot : PendingRot)
    (call : RotateCall) (update : Bool) : Worker.Shared :=
  if call.acquired then
    { shared with
      fs := Worker.ProcessFile.produce shared.fs rot.dngPath call.output
      db :=
        if update then
          shared.db.updateOrientation importId rot.orientation call.updated
        else shared.db }
  else shared

/-- `RotationManager::Dispatch`. -/
def dispatch (shared : Worker.Shared) (importId : Int) (rot : PendingRot)
    (call : RotateCall) : Worker.Shared :=
  rotate shared importId rot call call.succeeded

/-- One round of the loop in `RotationManager::Stop`, which does not look at
the exit code. -/
def drain (shared : Worker.Shared) (importId : Int) (rot : PendingRot)
    (call : RotateCall) : Worker.Shared :=
  rotate shared importId rot call true

theorem drain_eq_dispatch (shared : Worker.Shared) (importId : Int)
    (rot : PendingRot) {call : RotateCall} (success : call.succeeded = true) :
    drain shared importId rot call = dispatch shared importId rot call := by
  unfold drain dispatch
  rw [success]

end Rotation

/-- The files, the tables and the rotation manager. -/
structure Library where
  shared : Worker.Shared
  pending : Int → Option Rotation.PendingRot := fun _ => none
  remaining : Int → Option Rotation.PendingRot := fun _ => none
  stopped : Bool := false

namespace Library

inductive Operation where
  | arrive (path : Path) (file : File)
  | importFile (name : String) (events : List Worker.ProcessFile.Event)
  | reconvert (job : ReconversionJob) (call : ReconvertCall)
  | rotationUpdated (sourcePath : Path) (orientation : Int)
      (clientId : String) (found : Bool)
  | dispatch (importId : Int) (call : Rotation.RotateCall)
  | stop
  | drain (importId : Int) (call : Rotation.RotateCall)
  | reembed (path : Path) (output : File) (call : Api.PreviewCall)
  deriving DecidableEq, Repr

def initial (clock wall : Int) (fs : Fs) (db : Db) : Library :=
  { shared :=
      { clock := clock
        wall := wall
        fs := fs
        db := { db with imports := [] } } }

/-- `POST /api/v1/imports/by-source/rotation-updated` with
`RotationManager::Queue`. -/
def rotationUpdated (platform : Worker.Platform) (library : Library)
    (sourcePath : Path) (orientation : Int) (clientId : String)
    (found : Bool) : Library × Api.Response :=
  match library.shared.db.getImportBySourcePath platform.mariadb sourcePath
      found with
  | none => (library, Api.failure 404 "not-found")
  | some r =>
      ({ library with
          pending := Function.update library.pending r.id
            (some
              { orientation := orientation
                dngPath := r.outputPath
                clientId := clientId }) },
        { status := 200, body := "\x7b\"status\":\"queued\"\x7d" })

def passStep (platform : Worker.Platform) (cfg : Config) (path : Path)
    (state : Worker.Shared × Worker.ProcessFile.Stage)
    (event : Worker.ProcessFile.Event) :
    Option (Worker.Shared × Worker.ProcessFile.Stage) :=
  Worker.ProcessFile.next platform cfg path state.1 state.2 event

def step (platform : Worker.Platform) (cfg : Config) (library : Library) :
    Operation → Option Library
  | .arrive path file =>
      if Inside cfg.watchDir path ∧ library.shared.fs path = none then
        some { library with
          shared := { library.shared with
            fs := library.shared.fs.write path file } }
      else none
  | .importFile name events =>
      if Bare name ∧ Worker.acceptedName name = true then
        match run (passStep platform cfg (joinPath cfg.watchDir name))
            (library.shared, .fingerprint) events with
        | some (shared, .done) => some { library with shared := shared }
        | _ => none
      else none
  | .reconvert job call =>
      some { library with
        shared := Worker.reconvert platform library.shared job call }
  | .rotationUpdated sourcePath orientation clientId found =>
      some (library.rotationUpdated platform sourcePath orientation clientId
        found).1
  | .dispatch importId call =>
      (library.pending importId).map fun rot =>
        { library with
          shared := Rotation.dispatch library.shared importId rot call
          pending := Function.update library.pending importId none }
  | .stop =>
      if library.stopped then none
      else
        some { library with
          pending := fun _ => none
          remaining := library.pending
          stopped := true }
  | .drain importId call =>
      (library.remaining importId).map fun rot =>
        { library with
          shared := Rotation.drain library.shared importId rot call
          remaining := Function.update library.remaining importId none }
  | .reembed path output call =>
      if ∃ row ∈ library.shared.db.imports, row.outputPath = path then
        some { library with
          shared := (Api.previewUpdated platform
            { library.shared with
              fs := library.shared.fs.write path output } path call).1 }
      else none

end Library

end RawImport
