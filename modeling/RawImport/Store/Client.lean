import RawImport.Lib.Cxx
import RawImport.Store.Tables

/-!
# The store over the client library

The operations of `db.cpp` that the API uses, over whatever the MariaDB client
answers: rows of any number of columns with any text in them, or a failure at
any statement.
-/

namespace RawImport

open Cxx

/-- The statements with the values bound to them. -/
inductive Statement where
  | importBySequence (name : String)
  | importByHash (sha : String)
  | importBySourcePath (path : Path)
  | importByOutputPath (path : Path)
  | countImports (status : Option ImportStatus)
  | importsPage (status camera : String) (limit offset : Int)
  | insertReconversion (importId : Int)
      (previousOutputHash conversionSettings reason : String)
  | updateOutputHash (id : Int) (newHash : String)
  | insertPreviewEdit (importId : Int)
      (worker previousOutputHash newOutputHash : String)
      (width height quality : Int)
  deriving DecidableEq, Repr

/-- What the client reports behind a statement. -/
structure Reply where
  executed : Bool := true
  rows : List (List Text) := []
  insertId : Nat := 0
  deriving DecidableEq, Repr

/-- The client library; the state is that of the server. -/
structure Client (σ : Type) where
  execute : Statement → σ → Reply × σ
  ping : σ → Bool × σ

/-- `vec_to_record`. -/
def vecToRecord (v : List Text) : ImportRecord :=
  let str (i : Nat) : String := String.ofList (v.getD i [])
  let st := str 11
  { id := if 0 < v.length then strtoll (v.getD 0 []) else 0
    sequenceId := if 1 < v.length then strtoll (v.getD 1 []) else 0
    sourcePath := str 2
    sourceHash := str 3
    outputPath := str 4
    outputHash := str 5
    cameraModel := str 6
    captureDate := str 7
    captureTime := str 8
    folderSchema := str 9
    conversionSettings := str 10
    status :=
      if st = "pending" then .pending
      else if st = "converting" then .converting
      else if st = "failed" then .failed
      else if st = "restored" then .restored
      else if st = "legacy" then .legacy
      else .completed
    orientation := if 12 < v.length then atoi (v.getD 12 []) else 0
    createdAt := str 13
    completedAt := str 14
    sequenceName := str 15 }

structure Stats where
  total : Int := 0
  completed : Int := 0
  failed : Int := 0
  queueDepth : Int := 0
  deriving DecidableEq, Repr

namespace Store

variable {σ : Type} (client : Client σ)

/-- `exec_select`. -/
def execSelect (statement : Statement) (state : σ) : List (List Text) × σ :=
  let (reply, state) := client.execute statement state
  (if reply.executed then reply.rows else [], state)

def lookup (statement : Statement) (state : σ) : Option ImportRecord × σ :=
  let (rows, state) := execSelect client statement state
  (rows.head?.map vecToRecord, state)

def getImportBySequence (seq : String) : σ → Option ImportRecord × σ :=
  lookup client (.importBySequence seq)

def getImportByHash (sha : String) : σ → Option ImportRecord × σ :=
  lookup client (.importByHash sha)

def getImportBySourcePath (path : Path) : σ → Option ImportRecord × σ :=
  lookup client (.importBySourcePath path)

def getImportByOutputPath (path : Path) : σ → Option ImportRecord × σ :=
  lookup client (.importByOutputPath path)

/-- The lambda in `GetStats`. -/
def count (status : Option ImportStatus) (state : σ) : Int × σ :=
  let (rows, state) := execSelect client (.countImports status) state
  (match rows with
    | (value :: _) :: _ => strtoll value
    | _ => 0, state)

/-- `GetStats`; nothing sets the depth of the queue. -/
def getStats (state : σ) : Stats × σ :=
  let (total, state) := count client none state
  let (completed, state) := count client (some .completed) state
  let (failed, state) := count client (some .failed) state
  ({ total := total, completed := completed, failed := failed }, state)

/-- `ListImports`; the offset is a product of two `int`. -/
def listImports (page limit : Int) (status camera : String) (state : σ) :
    List ImportRecord × σ :=
  let (rows, state) :=
    execSelect client
      (.importsPage status camera limit
        (Int.bmod ((page - 1) * limit) (2 ^ 32)))
      state
  (rows.map vecToRecord, state)

/-- The text bound to `conversion_settings`. -/
def settingsJson (settings : ConversionSettings) : String :=
  "\x7b\"compression\":\"" ++ settings.compression ++ "\"," ++
    "\"preview_medium\":\"" ++ settings.previewMedium ++ "\"," ++
    "\"preview_full\":\"" ++ settings.previewFull ++ "\"," ++
    "\"version\":\"" ++ settings.version ++ "\"," ++
    "\"jpeg_quality\":" ++ toString settings.jpegQuality ++ "," ++
    "\"linear\":" ++ (if settings.linear then "true" else "false") ++ "\x7d"

/-- `InsertReconversion`: the new row id, 0 on failure. -/
def insertReconversion (importId : Int) (job : ReconversionJob)
    (state : σ) : Int × σ :=
  let (reply, state) :=
    client.execute
      (.insertReconversion importId job.previousOutputHash
        (settingsJson job.settings) job.reason)
      state
  (if reply.executed then toInt64 reply.insertId else 0, state)

def updateOutputHash (id : Int) (newHash : String) (state : σ) : Bool × σ :=
  let (reply, state) := client.execute (.updateOutputHash id newHash) state
  (reply.executed, state)

def recordPreviewEdit (importId : Int)
    (worker previousHash newHash : String) (width height quality : Int)
    (state : σ) : Bool × σ :=
  let (reply, state) :=
    client.execute
      (.insertPreviewEdit importId worker previousHash newHash width height
        quality)
      state
  (reply.executed, state)

end Store

end RawImport
