import RawImport.Api.Json
import RawImport.Api.Query
import RawImport.Api.Request
import RawImport.Lib.Effect
import RawImport.Server.Threads
import RawImport.Store.Client

/-!
# Handling a request

`handle` behind the read loop: the request line, the token check and the routes
in the order of `api.cpp`.  The session collects the responses and the calls of
the store and of the rotation manager.
-/

namespace RawImport

namespace Api

open Cxx Effect Search

/-- What `send_response` is given. -/
structure Answer where
  code : Nat
  body : Text
  contentType : Text
  deriving DecidableEq, Repr

inductive Call where
  | store (operation : Server.StoreOperation)
  | queue (importId : Int) (dngPath : Path) (orientation : Int)
      (clientId : String)
  deriving DecidableEq, Repr

/-- `ApiServer::Impl` with what it reaches.  A missing `queue` is a null
`rotation_mgr`. -/
structure Impl (σ : Type) where
  config : Config
  client : Client σ
  sha256File : Path → σ → String × σ
  render : σ → Text
  queue : Option (Int → Path → Int → String → σ → σ)

structure Session (σ : Type) where
  world : σ
  calls : List Call := []
  sent : List Answer := []
  deriving DecidableEq, Repr

abbrev Handler (σ α : Type) : Type :=
  Program (Session σ) StdException α

variable {σ α : Type}

def sendResponse (code : Nat) (body : Text)
    (contentType : Text := "application/json".toList) : Handler σ Unit :=
  act fun session =>
    ((), { session with sent := session.sent ++ [⟨code, body, contentType⟩] })

def sendError (code : Nat) (error : String) : Handler σ Unit :=
  sendResponse code
    ("\x7b\"error\":\"".toList ++ error.toList ++ "\"\x7d".toList)

def callStore (operation : Server.StoreOperation) (step : σ → α × σ) :
    Handler σ α :=
  act fun session =>
    let (value, world) := step session.world
    (value,
      { session with
        world := world, calls := session.calls ++ [.store operation] })

/-- Method, path and query; `npos + 1` is 0. -/
def requestLine (req : Text) :
    Except StdException (Option (Text × Text × Text)) :=
  let sp1 := find [' '] req
  let sp2 := findFrom [' '] req ((sp1.map (· + 1)).getD 0)
  match sp1, sp2 with
  | some sp1, some sp2 => do
      let method ← substr req 0 sp1
      let full ← substr req (sp1 + 1) (sizeSub (sizeSub sp2 sp1) 1)
      match find ['?'] full with
      | none => return some (method, full, [])
      | some qpos =>
          let path ← substr full 0 qpos
          let query ← substrFrom full (qpos + 1)
          return some (method, path, query)
  | _, _ => return none

def checkToken (apiToken req : Text) : Except StdException Bool :=
  match find "Authorization:".toList req with
  | none => return false
  | some ah =>
      match findFrom "Bearer ".toList req ah with
      | none => return false
      | some b => do
          let tok ← substrFrom req (b + 7)
          let tok ← match find crlf tok with
            | none => pure tok
            | some nl => substr tok 0 nl
          return decide (tok = apiToken)

def authorized (config : Config) (req path : Text) :
    Except StdException Bool :=
  if path ≠ "/health".toList ∧ config.apiToken ≠ "" then
    checkToken config.apiToken.toList req
  else return true

def bodyOf (req : Text) : Except StdException Text :=
  match find blankLine req with
  | none => .ok []
  | some bpos => substrFrom req (bpos + 4)

variable (impl : Impl σ)

def ready : Handler σ Unit := do
  let dbOk ← callStore .ping impl.client.ping
  if dbOk then
    sendResponse 200 "\x7b\"status\":\"ready\",\"db\":\"ok\"\x7d".toList
  else
    sendResponse 503
      "\x7b\"status\":\"not-ready\",\"db\":\"unavailable\"\x7d".toList

def metrics : Handler σ Unit := do
  let text ← act fun session => (impl.render session.world, session)
  sendResponse 200 text "text/plain; version=0.0.4".toList

def stats : Handler σ Unit := do
  let s ← callStore .getStats (Store.getStats impl.client)
  sendResponse 200
    ("\x7b\"total\":".toList ++ (toString s.total).toList ++
      ",\"completed\":".toList ++ (toString s.completed).toList ++
      ",\"failed\":".toList ++ (toString s.failed).toList ++
      ",\"queue_depth\":".toList ++ (toString s.queueDepth).toList ++
      "\x7d".toList)

/-- A numeric parameter, with the value it has when it is missing. -/
def intParam (q : Params) (key : String) (missing : Int) : Handler σ Int :=
  match q.get key.toList with
  | some text => check (stoi text)
  | none => pure missing

def listing (q : Params) : Handler σ Unit := do
  let page ← intParam q "page" 1
  let limit ← intParam q "limit" 50
  let page := if page < 1 then 1 else page
  let limit := if limit < 1 then 50 else limit
  let statusF := (q.get "status".toList).getD []
  let cameraF := (q.get "camera".toList).getD []
  let rows ← callStore .listImports
    (Store.listImports impl.client page limit (String.ofList statusF)
      (String.ofList cameraF))
  let s ← callStore .getStats (Store.getStats impl.client)
  sendResponse 200
    ("\x7b\"total\":".toList ++ (toString s.total).toList ++
      ",\"page\":".toList ++ (toString page).toList ++
      ",\"limit\":".toList ++ (toString limit).toList ++
      ",\"data\":[".toList ++
      [','].intercalate (rows.map recordToJson) ++ "]\x7d".toList)

def answerRecord (r : Option ImportRecord) : Handler σ Unit :=
  match r with
  | none => sendError 404 "not-found"
  | some r => sendResponse 200 (recordToJson r)

def byHash (path : Text) : Handler σ Unit := do
  let sha ← check (substrFrom path "/api/v1/imports/hash/".length)
  let r ← callStore .getImportByHash
    (Store.getImportByHash impl.client (String.ofList sha))
  answerRecord r

def bySource (q : Params) : Handler σ Unit := do
  let sp := (q.get "path".toList).getD []
  let r ← callStore .getImportBySourcePath
    (Store.getImportBySourcePath impl.client (String.ofList sp))
  answerRecord r

def bySequence (path : Text) : Handler σ Unit := do
  let seq ← check (substrFrom path "/api/v1/imports/".length)
  let r ← callStore .getImportBySequence
    (Store.getImportBySequence impl.client (String.ofList seq))
  answerRecord r

def reconvert (req path : Text) : Handler σ Unit := do
  let seq ← check (substrFrom path "/api/v1/imports/".length)
  let seq ← check
    (substr seq 0 ((find "/reconvert".toList seq).getD seq.length))
  let r ← callStore .getImportBySequence
    (Store.getImportBySequence impl.client (String.ofList seq))
  match r with
  | none => sendError 404 "not-found"
  | some r =>
      let body ← check (bodyOf req)
      let compression ← check (jsonGet body "compression".toList)
      let reason ← check (jsonGet body "reason".toList)
      let job : ReconversionJob :=
        { importId := r.id
          previousOutputHash := r.outputHash
          settings :=
            { compression :=
                if compression = [] then "lossless"
                else String.ofList compression }
          reason := String.ofList reason }
      let rid ← callStore .insertReconversion
        (Store.insertReconversion impl.client r.id job)
      sendResponse 200
        ("\x7b\"reconversion_id\":".toList ++ (toString rid).toList ++
          ",\"sequence\":\"".toList ++ jsonEscape seq ++
          "\",\"status\":\"pending\",\"queued_at\":\"\"\x7d".toList)

def previewUpdatedRoute (req : Text) : Handler σ Unit := do
  let body ← check (bodyOf req)
  let op ← check (jsonGet body "output_path".toList)
  if op = [] then sendError 400 "missing-output_path"
  else
    let r ← callStore .getImportByOutputPath
      (Store.getImportByOutputPath impl.client (String.ofList op))
    match r with
    | none => sendError 404 "not-found"
    | some r =>
        let newHash ← act fun session =>
          let (newHash, world) :=
            impl.sha256File (String.ofList op) session.world
          (newHash, { session with world := world })
        if newHash = "" then sendError 500 "hash-failed"
        else
          let _ ← callStore .updateOutputHash
            (Store.updateOutputHash impl.client r.id newHash)
          let _ ← callStore .recordPreviewEdit
            (Store.recordPreviewEdit impl.client r.id "api-preview-updated"
              r.outputHash newHash 0 0 0)
          sendResponse 200 "\x7b\"status\":\"synced\"\x7d".toList

/-- `rotation-updated` behind the conversion of the orientation. -/
def queueRotation (queue : Int → Path → Int → String → σ → σ)
    (body sp : Text) (orient : Int) : Handler σ Unit := do
  let client ← check (jsonGet body "client_id".toList)
  let r ← callStore .getImportBySourcePath
    (Store.getImportBySourcePath impl.client (String.ofList sp))
  match r with
  | none => sendError 404 "not-found"
  | some r =>
      act fun session =>
        ((),
          { session with
            world :=
              queue r.id r.outputPath orient (String.ofList client)
                session.world
            calls := session.calls ++
              [.queue r.id r.outputPath orient (String.ofList client)] })
      sendResponse 200 "\x7b\"status\":\"queued\"\x7d".toList

def rotationUpdated (req : Text) : Handler σ Unit :=
  match impl.queue with
  | none => sendError 503 "rotation-disabled"
  | some queue => do
      let body ← check (bodyOf req)
      let sp ← check (jsonGet body "source_path".toList)
      let os ← check (jsonGet body "orientation".toList)
      let orient ← if os = [] then pure 1 else check (stoi os)
      queueRotation impl queue body sp orient

def route (req method path : Text) (q : Params) : Handler σ Unit :=
  if method = "GET".toList ∧ path = "/health".toList then
    sendResponse 200 "\x7b\"status\":\"ok\"\x7d".toList
  else if method = "GET".toList ∧ path = "/ready".toList then ready impl
  else if method = "GET".toList ∧ path = "/metrics".toList then metrics impl
  else if method = "GET".toList ∧ path = "/api/v1/stats".toList then
    stats impl
  else if method = "GET".toList ∧ path = "/api/v1/alerts".toList then
    sendResponse 200 "\x7b\"alerts\":[]\x7d".toList
  else if method = "GET".toList ∧ path = "/api/v1/imports".toList then
    listing impl q
  else if method = "GET".toList ∧
      "/api/v1/imports/hash/".toList <+: path then
    byHash impl path
  else if method = "GET".toList ∧
      "/api/v1/imports/by-source".toList <+: path then
    bySource impl q
  else if method = "GET".toList ∧ "/api/v1/imports/".toList <+: path then
    bySequence impl path
  else if method = "POST".toList ∧ "/api/v1/imports/".toList <+: path ∧
      find "/reconvert".toList path ≠ none then
    reconvert impl req path
  else if method = "POST".toList ∧
      path = "/api/v1/imports/by-path/preview-updated".toList then
    previewUpdatedRoute impl req
  else if method = "POST".toList ∧
      path = "/api/v1/imports/by-source/rotation-updated".toList then
    rotationUpdated impl req
  else sendError 404 "no-route"

/-- `handle` behind the read loop. -/
def respond (req : Text) : Handler σ Unit :=
  if req = [] then sendError 400 "empty"
  else do
    match ← check (requestLine req) with
    | none => sendError 400 "bad-request"
    | some (method, path, query) =>
        let q ← check (parseQuery query)
        let ok ← check (authorized impl.config req path)
        if ok then route impl req method path q
        else sendError 401 "unauthorized"

def handle (chunks : List Chunk) : Handler σ Unit := do
  let req ← check (readRequest chunks)
  respond impl req

end Api

end RawImport
