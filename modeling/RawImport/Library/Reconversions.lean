import RawImport.Api.Responses
import RawImport.Library.HashRace

/-!
# Reconversions on their way to the drain

`POST /api/v1/imports/<seq>/reconvert` inserts a row and answers with its id;
`QueueReconvert` is the way into the queue of the drain thread.  The HTTP
threads run whole requests between the steps of the service, and what has gone
through the queue is counted over the history.
-/

namespace RawImport

namespace Reconversions

open Api Cxx Effect PathText Search Transition

variable {n m : Nat}

inductive Action (n m : Nat) where
  | handle (chunks : List Chunk)
  | service (action : Service.Action n m)

section Definitions

variable (impl : Impl Worker.Shared)

def session (shared : Worker.Shared) (chunks : List Chunk) :
    Session Worker.Shared :=
  (run (handle impl chunks) { world := shared }).2

/-- A request or a step of the service; nothing calls `QueueReconvert`. -/
def step (platform : Worker.Platform) (cfg : Config)
    (service : Service n m) : Action n m → Option (Service n m)
  | .handle chunks =>
      some (service.withShared (session impl service.shared chunks).world)
  | .service (.queueReconvert _) => none
  | .service action => Service.step platform cfg service action

def sequenceText (path : Text) : Text :=
  let seq := path.drop "/api/v1/imports/".length
  seq.take ((find "/reconvert".toList seq).getD seq.length)

/-- The text asks for the route. -/
structure Asks (req path : Text) : Prop where
  line : ∃ query, requestLine req = .ok (some ("POST".toList, path, query))
  imports : "/api/v1/imports/".toList <+: path
  reconvert : find "/reconvert".toList path ≠ none

def pending (rid : Int) (seq : Text) : Answer :=
  { code := 200
    body := "\x7b\"reconversion_id\":".toList ++ (toString rid).toList ++
      ",\"sequence\":\"".toList ++ jsonEscape seq ++
      "\",\"status\":\"pending\",\"queued_at\":\"\"\x7d".toList
    contentType := "application/json".toList }

/-- The request for the route was answered with this id. -/
def AnsweredPending (shared : Worker.Shared) (chunks : List Chunk)
    (rid : Int) : Prop :=
  ∃ req path, readRequest chunks = .ok req ∧ Asks req path ∧
    (session impl shared chunks).sent = [pending rid (sequenceText path)]

/-- The request for the route passes the token check and names an import. -/
def Accepted (shared : Worker.Shared) (chunks : List Chunk) : Prop :=
  ∃ req path, readRequest chunks = .ok req ∧ Asks req path ∧
    authorized impl.config req path = .ok true ∧
    (Store.getImportBySequence impl.client
      (String.ofList (sequenceText path)) shared).1.isSome = true

def Unaccepted (state : Tracked (Service n m) (Action n m)) :
    Action n m → Prop
  | .handle chunks => ¬Accepted impl state.now.shared chunks
  | .service _ => True

/-- The drain has taken a job with this id from the queue. -/
def takes (rid : Int) : Service n m × Action n m → Bool
  | (service, .service .takeReconvert) =>
      service.reconverts.head?.any fun job => decide (job.id = rid)
  | _ => false

/-- How often a job with this id was pushed: it was taken since or waits. -/
def pushed (rid : Int) (state : Tracked (Service n m) (Action n m)) : Nat :=
  state.past.countP (takes rid) +
    state.now.reconverts.countP fun job => decide (job.id = rid)

def drained : Worker.ReconvertDrain.Stage → Option ReconversionJob
  | .wait => none
  | .lookup job => some job
  | .convert job _ => some job
  | .hash job _ => some job
  | .updateHash job _ _ => some job
  | .finish job _ _ => some job

/-- What an accepted request promises. -/
structure DeliveredTo (state : Tracked (Service n m) (Action n m))
    (shared : Worker.Shared) (chunks : List Chunk) (rid : Int) : Prop where
  inserted : ∃ row ∈ (session impl shared chunks).world.db.reconversions,
    (row.id : Int) = rid ∧ row.status = .pending ∧
      row ∉ shared.db.reconversions
  once : pushed rid state = 1
  waiting : ∀ row ∈ state.now.shared.db.reconversions,
    (row.id : Int) = rid → row.status = .pending →
      ∃ job ∈ state.now.reconverts ++ (drained state.now.drain).toList,
        job.id = rid

/-- Every accepted request of the history is delivered. -/
def Delivered (state : Tracked (Service n m) (Action n m)) : Prop :=
  ∀ service chunks, (service, Action.handle chunks) ∈ state.past →
    ∀ rid, AnsweredPending impl service.shared chunks rid →
      DeliveredTo impl state service.shared chunks rid

end Definitions

section Answers

variable {impl : Impl Worker.Shared} {shared : Worker.Shared}
  {req path query : Text} {q : Params}

theorem route_reconvert (asks : Asks req path) :
    route impl req "POST".toList path q = reconvert impl req path := by
  have get : ("POST".toList = "GET".toList) = False := by decide
  unfold route
  simp only [get, false_and, if_false, true_and]
  rw [if_pos ⟨asks.imports, asks.reconvert⟩]

theorem reconvert_sent (imports : "/api/v1/imports/".toList <+: path) :
    Ends (reconvert impl req path) { world := shared }
      (fun _ final =>
        if (Store.getImportBySequence impl.client
            (String.ofList (sequenceText path)) shared).1.isSome = true then
          ∃ rid, final.sent = [pending rid (sequenceText path)]
        else ∃ answer, final.sent = [answer] ∧ answer.code = 404)
      fun _ _ => False := by
  have start : substrFrom path "/api/v1/imports/".length =
      .ok (path.drop "/api/v1/imports/".length) :=
    substrFrom_of_starts imports
  have text : substr (path.drop "/api/v1/imports/".length) 0
      ((find "/reconvert".toList (path.drop "/api/v1/imports/".length)).getD
        (path.drop "/api/v1/imports/".length).length) =
      .ok (sequenceText path) := by
    rw [substr_ok (Nat.zero_le _), List.drop_zero]
    rfl
  obtain ⟨body, extracted⟩ := bodyOf_ok req
  obtain ⟨compression, compressed⟩ := jsonGet_ok body "compression".toList
  obtain ⟨reason, reasoned⟩ := jsonGet_ok body "reason".toList
  unfold reconvert
  simp only [start, text, ends_bind, ends_check_ok, callStore, ends_act]
  cases (Store.getImportBySequence impl.client
      (String.ofList (sequenceText path)) shared).1 with
  | none => exact ⟨_, rfl, rfl⟩
  | some r =>
      simp only [extracted, compressed, reasoned, ends_bind, ends_check_ok,
        ends_act]
      exact ⟨_, rfl⟩

theorem sent_sendError (code : Nat) (error : String) :
    Ends (sendError code error : Handler Worker.Shared Unit)
      { world := shared }
      (fun _ final => ∃ answer, final.sent = [answer] ∧ answer.code = code)
      fun _ _ => False :=
  ⟨_, rfl, rfl⟩

theorem session_sent {chunks : List Chunk} (holds : List Answer → Prop)
    (read : readRequest chunks = .ok req)
    (ends : Ends (respond impl req) { world := shared }
      (fun _ final => holds final.sent) fun _ _ => False) :
    holds (session impl shared chunks).sent := by
  have either : Ends (respond impl req) { world := shared }
      (fun _ final => holds final.sent) fun _ final => holds final.sent :=
    ends.mono (fun _ _ sent => sent) fun _ _ impossible => impossible.elim
  unfold session
  rw [handle_eq impl read]
  exact either.final

theorem not_pending_of_code {sent : List Answer} {rid : Int} {seq : Text}
    {code : Nat} (other : code ≠ 200)
    (answered : ∃ answer, sent = [answer] ∧ answer.code = code) :
    sent ≠ [pending rid seq] := by
  obtain ⟨answer, rfl, rfl⟩ := answered
  intro same
  cases same
  exact other rfl

theorem sent_of_authorized {chunks : List Chunk}
    (read : readRequest chunks = .ok req) (asks : Asks req path)
    (gate : authorized impl.config req path = .ok true)
    (shared : Worker.Shared) :
    if (Store.getImportBySequence impl.client
        (String.ofList (sequenceText path)) shared).1.isSome = true then
      ∃ rid, (session impl shared chunks).sent =
        [pending rid (sequenceText path)]
    else ∃ answer, (session impl shared chunks).sent = [answer] ∧
      answer.code = 404 := by
  obtain ⟨query, line⟩ := asks.line
  obtain ⟨q, params⟩ := parseQuery_ok query
  apply session_sent (fun sent =>
    if (Store.getImportBySequence impl.client
        (String.ofList (sequenceText path)) shared).1.isSome = true then
      ∃ rid, sent = [pending rid (sequenceText path)]
    else ∃ answer, sent = [answer] ∧ answer.code = 404) read
  rw [respond_routed impl ⟨⟨query, line, params⟩, gate⟩,
    route_reconvert asks]
  exact reconvert_sent asks.imports

/-- A request is answered as pending exactly when it is accepted. -/
theorem answeredPending_iff {chunks : List Chunk} :
    (∃ rid, AnsweredPending impl shared chunks rid) ↔
      Accepted impl shared chunks := by
  constructor
  · intro answered
    obtain ⟨rid, req, path, read, asks, sent⟩ := answered
    obtain ⟨query, line⟩ := asks.line
    refine ⟨req, path, read, asks, ?_⟩
    obtain ⟨passes, gate⟩ := authorized_ok impl.config req path
    cases passes with
    | false =>
        have refused : ∃ answer, (session impl shared chunks).sent =
            [answer] ∧ answer.code = 401 := by
          apply session_sent (fun sent => ∃ answer, sent = [answer] ∧
            answer.code = 401) read
          rw [respond_refused impl line gate]
          exact sent_sendError 401 "unauthorized"
        exact (not_pending_of_code (by decide) refused sent).elim
    | true =>
        refine ⟨gate, ?_⟩
        by_contra unknown
        have notFound : ∃ answer, (session impl shared chunks).sent =
            [answer] ∧ answer.code = 404 := by
          have decided := sent_of_authorized read asks gate
            shared
          rwa [if_neg unknown] at decided
        exact (not_pending_of_code (by decide) notFound sent).elim
  · intro accepted
    obtain ⟨req, path, read, asks, gate, known⟩ := accepted
    have decided := sent_of_authorized read asks gate shared
    rw [if_pos known] at decided
    obtain ⟨rid, sent⟩ := decided
    exact ⟨rid, req, path, read, asks, sent⟩

end Answers

section Queue

variable {impl : Impl Worker.Shared} {platform : Worker.Platform}
  {cfg : Config} {state after : Tracked (Service n m) (Action n m)}
  {action : Action n m}

/-- Nothing is and was in the queue. -/
structure NothingQueued (state : Tracked (Service n m) (Action n m)) :
    Prop where
  now : state.now.reconverts = []
  past : ∀ step ∈ state.past, step.1.reconverts = []

theorem NothingQueued.pushed (nothing : NothingQueued state) (rid : Int) :
    pushed rid state = 0 := by
  unfold Reconversions.pushed
  rw [nothing.now, List.countP_nil, Nat.add_zero, List.countP_eq_zero]
  intro step member taken
  unfold takes at taken
  split at taken
  · rename_i service
    have empty := nothing.past _ member
    simp only at empty
    rw [empty] at taken
    cases taken
  · cases taken

theorem service_step {service next : Service n m}
    {action : Service.Action n m}
    (taken : step impl platform cfg service (.service action) =
      some next) :
    (∀ job, action ≠ .queueReconvert job) ∧
      Service.step platform cfg service action = some next := by
  cases action with
  | queueReconvert job => cases taken
  | _ => exact ⟨nofun, taken⟩

theorem reconverts_step {service next : Service n m}
    (taken : step impl platform cfg service action = some next)
    (empty : service.reconverts = []) : next.reconverts = [] := by
  cases action with
  | handle chunks =>
      cases taken
      exact empty
  | service action =>
      obtain ⟨uncalled, serviceTaken⟩ := service_step taken
      rcases Service.step_reconverts serviceTaken with
        same | ⟨job, called⟩ | ⟨job, queued⟩
      · rw [same]
        exact empty
      · exact (uncalled job called).elim
      · rw [empty] at queued
        cases queued

theorem NothingQueued.step (nothing : NothingQueued state)
    (taken : track (Reconversions.step impl platform cfg) state action =
      some after) : NothingQueued after := by
  obtain ⟨stepTaken, past⟩ := track_eq_some_iff.mp taken
  constructor
  · exact reconverts_step stepTaken nothing.now
  · rw [past]
    intro step member
    rcases List.mem_cons.mp member with here | old
    · rw [here]
      exact nothing.now
    · exact nothing.past step old

/-- Nothing was queued and no request accepted. -/
structure NothingAccepted (impl : Impl Worker.Shared)
    (state : Tracked (Service n m) (Action n m)) : Prop where
  queue : NothingQueued state
  past : ∀ service chunks, (service, Action.handle chunks) ∈ state.past →
    ¬Accepted impl service.shared chunks

theorem NothingAccepted.delivered (nothing : NothingAccepted impl state) :
    Delivered impl state := by
  intro service chunks member rid answered
  exact (nothing.past service chunks member
    (answeredPending_iff.mp ⟨rid, answered⟩)).elim

theorem NothingAccepted.step (nothing : NothingAccepted impl state)
    (unaccepted : Unaccepted impl state action)
    (taken : track (Reconversions.step impl platform cfg) state action =
      some after) : NothingAccepted impl after := by
  obtain ⟨stepTaken, past⟩ := track_eq_some_iff.mp taken
  constructor
  · exact nothing.queue.step taken
  · rw [past]
    intro service chunks member
    rcases List.mem_cons.mp member with here | old
    · cases here
      exact unaccepted
    · exact nothing.past service chunks old

theorem unaccepted_of_delivered (nothing : NothingQueued state)
    (taken : track (Reconversions.step impl platform cfg) state action =
      some after) (delivered : Delivered impl after) :
    Unaccepted impl state action := by
  obtain ⟨-, past⟩ := track_eq_some_iff.mp taken
  cases action with
  | handle chunks =>
      intro accepted
      obtain ⟨rid, answered⟩ := answeredPending_iff.mpr accepted
      have promise := delivered state.now chunks
        (by rw [past]; exact List.mem_cons_self) rid answered
      have once := promise.once
      rw [(nothing.step taken).pushed rid] at once
      cases once
  | service action => trivial

end Queue

/-- Reconversions over whole runs of the server, for any tables, client
library and interleaving of requests with the steps of the service: every
request that is answered as pending is delivered exactly when none is
accepted. -/
theorem delivered_run_iff (impl : Impl Worker.Shared)
    (platform : Worker.Platform) (cfg : Config) (clock wall : Int) (fs : Fs)
    (db : Db) (actions : List (Action n m)) :
    Visits (track (step impl platform cfg)) (Delivered impl)
        (.start (Service.initial clock wall fs db)) actions ↔
      Along (track (step impl platform cfg)) (Unaccepted impl)
        (.start (Service.initial clock wall fs db)) actions := by
  apply visits_iff_along (NothingAccepted impl)
  · intro state nothing
    exact nothing.delivered
  · intro state action after nothing unaccepted taken
    exact nothing.step unaccepted taken
  · intro state action after nothing taken delivered
    exact unaccepted_of_delivered nothing.queue taken delivered
  · constructor
    · constructor
      · rfl
      · intro step member
        cases member
    · intro service chunks member
      cases member

def columns (sequence : SequenceRow) (row : ImportRow) : List Text :=
  [(toString row.id).toList, (toString row.sequenceId).toList,
    row.sourcePath.toList, row.sourceHash.toList, row.outputPath.toList,
    row.outputHash.toList, [], [], [], [], [], [], [], [], [],
    sequence.name.toList]

/-- A client library that finds imports by their sequence and inserts
reconversions. -/
def tables : Client Worker.Shared where
  execute
    | .importBySequence name, shared =>
        ({ rows := shared.db.imports.flatMap fun row =>
            (shared.db.sequences.filter fun sequence =>
              sequence.id = row.sequenceId ∧ sequence.name = name).map
                fun sequence => columns sequence row },
          shared)
    | .insertReconversion importId previousOutputHash conversionSettings
          reason, shared =>
        ({ insertId := shared.db.reconversions.length + 1 },
          { shared with
            db := { shared.db with
              reconversions := shared.db.reconversions ++
                [{ id := shared.db.reconversions.length + 1
                   importId := importId.toNat
                   previousOutputHash := previousOutputHash
                   newOutputHash := none
                   conversionSettings := conversionSettings
                   reason := some reason
                   status := .pending
                   completedAt := none }] } })
    | _, shared => ({}, shared)
  ping shared := (true, shared)

/-- A server without a token over these tables. -/
def openServer : Impl Worker.Shared :=
  { config := {}
    client := tables
    sha256File := fun _ shared => ("", shared)
    render := fun _ => []
    queue := none }

/-- One completed import before the first request. -/
def photographLibrary : Service 0 0 :=
  Service.initial 0 0
    (fun path =>
      if path = "/output/2024/05/IMG_1.dng" then some ⟨[1], 0⟩ else none)
    { sequences := [⟨1, "IMG_1"⟩]
      nextSequence := 2
      imports := [Service.photographRow]
      nextImport := 2 }

def reconvertRequest : Chunk :=
  ⟨"POST /api/v1/imports/IMG_1/reconvert HTTP/1.1\r\n\r\n".toList,
    by decide, by decide⟩

/-- The request is answered as pending with its row, and no job is queued. -/
theorem reconversion_never_queued :
    AnsweredPending openServer photographLibrary.shared [reconvertRequest]
      1 ∧
    ∃ state,
      run (track (step openServer Worker.photographs {}))
        (.start photographLibrary) [.handle [reconvertRequest]] =
          some state ∧
      (∃ row ∈ state.now.shared.db.reconversions,
        row.id = 1 ∧ row.status = .pending) ∧
      state.now.reconverts = [] ∧ drained state.now.drain = none ∧
      ¬Delivered openServer state := by
  have answered : AnsweredPending openServer photographLibrary.shared
      [reconvertRequest] 1 :=
    ⟨reconvertRequest.bytes, "/api/v1/imports/IMG_1/reconvert".toList,
      by decide +kernel,
      ⟨⟨[], by decide +kernel⟩, by decide +kernel, by decide +kernel⟩,
      by decide +kernel⟩
  refine ⟨answered, _, rfl, by decide +kernel, rfl, rfl, ?_⟩
  intro delivered
  have promise := delivered photographLibrary [reconvertRequest]
    List.mem_cons_self 1 answered
  have once := promise.once
  cases once

end Reconversions

end RawImport
