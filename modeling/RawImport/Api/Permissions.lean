import RawImport.Api.AnswerJson
import RawImport.Api.Responses

/-!
# What a request may do, and what is answered

A request is refused before it reaches the store, a `GET` only reads, and each
of the three `POST` routes has its own few writes.  What is answered is JSON
but for `/metrics`.  This is said for every text that a client can send,
whatever the database answers.
-/

namespace RawImport

namespace Api

open Cxx Effect Search

variable {σ α β : Type}

namespace Call

def Reads : Call → Prop
  | .store operation =>
      operation ∈ [Server.StoreOperation.ping, .getStats, .listImports,
        .getImportByHash, .getImportBySourcePath, .getImportBySequence,
        .getImportByOutputPath]
  | .queue _ _ _ _ => False

/-- What `reconvert` may do besides. -/
def Reconverts (call : Call) : Prop :=
  call.Reads ∨ call = .store .insertReconversion

/-- What `preview-updated` may do besides. -/
def RecordsPreview (call : Call) : Prop :=
  call.Reads ∨ call = .store .updateOutputHash ∨
    call = .store .recordPreviewEdit

/-- What `rotation-updated` may do besides. -/
def QueuesRotation (call : Call) : Prop :=
  call.Reads ∨ ∃ importId dngPath orientation clientId,
    call = .queue importId dngPath orientation clientId

end Call

def contentTypes : List Text :=
  ["application/json".toList, "text/plain; version=0.0.4".toList]

/-- The content type is one of the two, and the body is what it says. -/
structure Answer.Sound (answer : Answer) : Prop where
  typed : answer.contentType ∈ contentTypes
  json : answer.contentType = "application/json".toList →
    JsonExactly answer.body

/-- Nothing but allowed calls and sound answers are new. -/
structure Within (may : Call → Prop) (session final : Session σ) :
    Prop where
  calls : ∀ call ∈ final.calls, call ∈ session.calls ∨ may call
  sent : ∀ answer ∈ final.sent, answer ∈ session.sent ∨ answer.Sound

/-- The program stays within, whether it returns or raises. -/
def Does (may : Call → Prop) (program : Handler σ α) : Prop :=
  ∀ session, Ends program session (fun _ => Within may session)
    fun _ => Within may session

section Rules

variable {may allowed : Call → Prop} {program : Handler σ α}
  {next : α → Handler σ β}

theorem Within.refl (session : Session σ) : Within may session session :=
  ⟨fun _ member => .inl member, fun _ member => .inl member⟩

theorem Within.trans {first second third : Session σ}
    (before : Within may first second) (after : Within may second third) :
    Within may first third := by
  constructor
  · intro call member
    rcases after.calls call member with old | new
    · exact before.calls call old
    · exact .inr new
  · intro answer member
    rcases after.sent answer member with old | new
    · exact before.sent answer old
    · exact .inr new

theorem Does.mono (does : Does may program)
    (weaker : ∀ call, may call → allowed call) : Does allowed program := by
  have wider : ∀ {session final : Session σ},
      Within may session final → Within allowed session final := by
    intro session final within
    constructor
    · intro call member
      exact (within.calls call member).imp_right (weaker call)
    · exact within.sent
  intro session
  exact (does session).mono (fun _ _ => wider) fun _ _ => wider

theorem does_pure (value : α) : Does may (pure value : Handler σ α) :=
  fun session => .refl session

theorem Does.bind (first : Does may program)
    (rest : ∀ value, Does may (next value)) :
    Does may (program >>= next) := by
  intro session
  apply ends_bind.mpr
  apply (first session).mono
  · intro value middle within
    apply (rest value middle).mono
    · intro _ final later
      exact within.trans later
    · intro _ final later
      exact within.trans later
  · intro _ final within
    exact within

theorem Does.ite {condition : Prop} [Decidable condition]
    {first second : Handler σ α} (yes : condition → Does may first)
    (no : ¬condition → Does may second) :
    Does may (if condition then first else second) := by
  split
  · rename_i holds
    exact yes holds
  · rename_i fails
    exact no fails

theorem does_check (result : Except StdException α) :
    Does may (check result : Handler σ α) := by
  intro session
  cases result with
  | ok value => exact Within.refl session
  | error exception => exact Within.refl session

theorem does_sendResponse {answer : Answer} (sound : answer.Sound) :
    Does may (sendResponse answer.code answer.body answer.contentType :
      Handler σ Unit) := by
  intro session
  constructor
  · intro call member
    exact .inl member
  · intro answer member
    rcases List.mem_append.mp member with old | new
    · exact .inl old
    · rw [List.mem_singleton.mp new]
      exact .inr sound

theorem does_sendJson (code : Nat) {body : Text} (written : Written body) :
    Does may (sendResponse code body : Handler σ Unit) :=
  @does_sendResponse _ _ ⟨code, body, _⟩
    ⟨List.mem_cons_self, fun _ => written.exactly⟩

theorem does_sendError (code : Nat) {error : String}
    (plain : jsonEscape error.toList = error.toList) :
    Does may (sendError code error : Handler σ Unit) :=
  does_sendJson code (written_error plain)

theorem does_sendTexts (code : Nat) (members : List (String × String))
    {body : Text} (same : body = Json.objectText (members.map fun member =>
      (member.1.toList, '"' :: member.2.toList ++ ['"'])))
    (names : ∀ member ∈ members,
      member.1.toList.all Json.isUnescaped = true)
    (plain : ∀ member ∈ members,
      jsonEscape member.2.toList = member.2.toList) :
    Does may (sendResponse code body : Handler σ Unit) := by
  apply does_sendJson
  rw [same]
  exact written_texts names plain

theorem does_act {step : Session σ → α × Session σ}
    (calls : ∀ session, (step session).2.calls = session.calls)
    (sent : ∀ session, (step session).2.sent = session.sent) :
    Does may (act step : Handler σ α) := by
  intro session
  constructor
  · intro call member
    exact .inl (calls session ▸ member)
  · intro answer member
    exact .inl (sent session ▸ member)

theorem does_callStore {operation : Server.StoreOperation}
    (step : σ → α × σ) (allows : may (.store operation)) :
    Does may (callStore operation step) := by
  intro session
  constructor
  · intro call member
    rcases List.mem_append.mp member with old | new
    · exact .inl old
    · rw [List.mem_singleton.mp new]
      exact .inr allows
  · intro answer member
    exact .inl member

end Rules

section Routes

variable (impl : Impl σ)

theorem does_ready : Does Call.Reads (ready impl) := by
  apply Does.bind (does_callStore _ (by simp [Call.Reads]))
  intro dbOk
  refine .ite (fun _ => ?_) fun _ => ?_
  · exact does_sendTexts _ [("status", "ready"), ("db", "ok")] rfl
      (by decide +kernel) (by decide +kernel)
  · exact does_sendTexts _ [("status", "not-ready"), ("db", "unavailable")]
      rfl (by decide +kernel) (by decide +kernel)

theorem does_metrics : Does Call.Reads (metrics impl) := by
  apply Does.bind (does_act (fun _ => rfl) fun _ => rfl)
  intro text
  have other : "text/plain; version=0.0.4".toList ≠
      "application/json".toList := by decide +kernel
  exact @does_sendResponse _ _ ⟨200, text, _⟩
    ⟨List.mem_cons_of_mem _ List.mem_cons_self, fun same => (other same).elim⟩

theorem does_stats : Does Call.Reads (stats impl) := by
  apply Does.bind (does_callStore _ (by simp [Call.Reads]))
  intro s
  exact does_sendJson _ (written_stats s)

theorem does_intParam {may : Call → Prop} (q : Params) (key : String)
    (missing : Int) : Does may (intParam q key missing : Handler σ Int) := by
  unfold intParam
  split
  · exact does_check _
  · exact does_pure _

theorem does_listing (q : Params) : Does Call.Reads (listing impl q) := by
  apply Does.bind (does_intParam q "page" 1)
  intro page
  apply Does.bind (does_intParam q "limit" 50)
  intro limit
  apply Does.bind (does_callStore _ (by simp [Call.Reads]))
  intro rows
  apply Does.bind (does_callStore _ (by simp [Call.Reads]))
  intro s
  exact does_sendJson _ (written_listing _ _ _ rows)

theorem does_answerRecord {may : Call → Prop} (r : Option ImportRecord) :
    Does may (answerRecord r : Handler σ Unit) := by
  unfold answerRecord
  split
  · exact does_sendError _ rfl
  · exact does_sendJson _ (written_record _)

theorem does_byHash (path : Text) : Does Call.Reads (byHash impl path) := by
  apply Does.bind (does_check _)
  intro sha
  exact (does_callStore _ (by simp [Call.Reads])).bind does_answerRecord

theorem does_bySource (q : Params) : Does Call.Reads (bySource impl q) :=
  (does_callStore _ (by simp [Call.Reads])).bind does_answerRecord

theorem does_bySequence (path : Text) :
    Does Call.Reads (bySequence impl path) := by
  apply Does.bind (does_check _)
  intro seq
  exact (does_callStore _ (by simp [Call.Reads])).bind does_answerRecord

theorem does_reconvert (req path : Text) :
    Does Call.Reconverts (reconvert impl req path) := by
  apply Does.bind (does_check _)
  intro long
  apply Does.bind (does_check _)
  intro seq
  apply Does.bind (does_callStore _ (.inl (by simp [Call.Reads])))
  intro r
  split
  · exact does_sendError _ rfl
  · apply Does.bind (does_check _)
    intro body
    apply Does.bind (does_check _)
    intro compression
    apply Does.bind (does_check _)
    intro reason
    apply Does.bind (does_callStore _ (.inr rfl))
    intro rid
    exact does_sendJson _ (written_pending rid seq)

theorem does_previewUpdated (req : Text) :
    Does Call.RecordsPreview (previewUpdatedRoute impl req) := by
  apply Does.bind (does_check _)
  intro body
  apply Does.bind (does_check _)
  intro op
  refine .ite (fun _ => does_sendError _ rfl) fun _ => ?_
  apply Does.bind (does_callStore _ (.inl (by simp [Call.Reads])))
  intro r
  split
  · exact does_sendError _ rfl
  · apply Does.bind (does_act (fun _ => rfl) fun _ => rfl)
    intro newHash
    refine .ite (fun _ => does_sendError _ rfl) fun _ => ?_
    apply Does.bind (does_callStore _ (.inr (.inl rfl)))
    intro updated
    apply Does.bind (does_callStore _ (.inr (.inr rfl)))
    intro recorded
    exact does_sendTexts _ [("status", "synced")] rfl (by decide +kernel)
      (by decide +kernel)

theorem does_queueRotation (queue : Int → Path → Int → String → σ → σ)
    (body sp : Text) (orient : Int) :
    Does Call.QueuesRotation (queueRotation impl queue body sp orient) := by
  apply Does.bind (does_check _)
  intro client
  apply Does.bind (does_callStore _ (.inl (by simp [Call.Reads])))
  intro r
  split
  · exact does_sendError _ rfl
  · rename_i r
    refine Does.bind ?_ fun _ =>
      does_sendTexts _ [("status", "queued")] rfl (by decide +kernel)
        (by decide +kernel)
    intro session
    constructor
    · intro call member
      rcases List.mem_append.mp member with old | new
      · exact .inl old
      · rw [List.mem_singleton.mp new]
        exact .inr (.inr ⟨_, _, _, _, rfl⟩)
    · intro answer member
      exact .inl member

theorem does_rotationUpdated (req : Text) :
    Does Call.QueuesRotation (rotationUpdated impl req) := by
  unfold rotationUpdated
  split
  · exact does_sendError _ rfl
  · apply Does.bind (does_check _)
    intro body
    apply Does.bind (does_check _)
    intro sp
    apply Does.bind (does_check _)
    intro os
    split
    · exact (does_pure _).bind fun orient => does_queueRotation _ _ _ _ _
    · exact (does_check _).bind fun orient => does_queueRotation _ _ _ _ _

/-- What the method and the path of a request permit. -/
def Permits (method path : Text) (call : Call) : Prop :=
  (method = "GET".toList ∧ call.Reads) ∨
  (method = "POST".toList ∧
    (("/api/v1/imports/".toList <+: path ∧
        find "/reconvert".toList path ≠ none ∧ call.Reconverts) ∨
      (path = "/api/v1/imports/by-path/preview-updated".toList ∧
        call.RecordsPreview) ∨
      (path = "/api/v1/imports/by-source/rotation-updated".toList ∧
        call.QueuesRotation)))

theorem does_get {program : Handler σ Unit} {method path : Text}
    (reads : Does Call.Reads program) (get : method = "GET".toList) :
    Does (Permits method path) program :=
  reads.mono fun _ allowed => .inl ⟨get, allowed⟩

theorem does_route (req method path : Text) (q : Params) :
    Does (Permits method path) (route impl req method path q) := by
  unfold route
  refine .ite (fun _ => does_sendTexts _ [("status", "ok")] rfl
    (by decide +kernel) (by decide +kernel)) fun _ => ?_
  refine .ite (fun here => does_get (does_ready impl) here.1) fun _ => ?_
  refine .ite (fun here => does_get (does_metrics impl) here.1) fun _ => ?_
  refine .ite (fun here => does_get (does_stats impl) here.1) fun _ => ?_
  refine .ite (fun _ => does_sendJson _ written_alerts) fun _ => ?_
  refine .ite (fun here => does_get (does_listing impl q) here.1)
    fun _ => ?_
  refine .ite (fun here => does_get (does_byHash impl path) here.1)
    fun _ => ?_
  refine .ite (fun here => does_get (does_bySource impl q) here.1)
    fun _ => ?_
  refine .ite (fun here => does_get (does_bySequence impl path) here.1)
    fun _ => ?_
  refine .ite (fun here => ?_) fun _ => .ite (fun here => ?_) fun _ =>
    .ite (fun here => ?_) fun _ => does_sendError _ rfl
  · obtain ⟨post, stands, found⟩ := here
    exact (does_reconvert impl req path).mono fun call allowed =>
      .inr ⟨post, .inl ⟨stands, found, allowed⟩⟩
  · obtain ⟨post, same⟩ := here
    exact (does_previewUpdated impl req).mono fun call allowed =>
      .inr ⟨post, .inr (.inl ⟨same, allowed⟩)⟩
  · obtain ⟨post, same⟩ := here
    exact (does_rotationUpdated impl req).mono fun call allowed =>
      .inr ⟨post, .inr (.inr ⟨same, allowed⟩)⟩

/-- The request is complete, passes the token check, and its method and path
permit the call. -/
def Licensed (chunks : List Chunk) (call : Call) : Prop :=
  ∃ req method path query, readRequest chunks = .ok req ∧
    requestLine req = .ok (some (method, path, query)) ∧
    authorized impl.config req path = .ok true ∧ Permits method path call

theorem does_handle (chunks : List Chunk) :
    Does (Licensed impl chunks) (handle impl chunks) := by
  obtain ⟨req, read⟩ := readLoop_ok {} chunks
  rw [handle_eq impl read]
  have outcome := respond_cases impl req
  generalize respond impl req = program at outcome ⊢
  cases outcome with
  | empty empty => exact does_sendError _ rfl
  | badRequest line => exact does_sendError _ rfl
  | refused line gate => exact does_sendError _ rfl
  | @routed method path q routed =>
      obtain ⟨query, line, -⟩ := routed.line
      exact (does_route impl req method path q).mono fun call permitted =>
        ⟨req, method, path, query, read, line, routed.passes, permitted⟩

/-- Whatever bytes a client sends in whatever pieces: each call that the
handler has made, whether it returned or raised, is one that the token check
let through and that the method and the path permit. -/
theorem handle_licensed (chunks : List Chunk) (world : σ) :
    Ends (handle impl chunks) { world := world }
      (fun _ final => ∀ call ∈ final.calls, Licensed impl chunks call)
      fun _ final => ∀ call ∈ final.calls, Licensed impl chunks call := by
  have fresh : ∀ {final : Session σ},
      Within (Licensed impl chunks) { world := world } final →
      ∀ call ∈ final.calls, Licensed impl chunks call := by
    intro final within call member
    exact (within.calls call member).resolve_left (List.not_mem_nil)
  exact (does_handle impl chunks { world := world }).mono
    (fun _ _ within => fresh within) fun _ _ within => fresh within

/-- Every answer that is not the text of `/metrics` is JSON exactly when no
bare control character stands in it. -/
theorem handle_json (chunks : List Chunk) (world : σ) :
    Ends (handle impl chunks) { world := world }
      (fun _ final => ∀ answer ∈ final.sent,
        answer.contentType ≠ "text/plain; version=0.0.4".toList →
          JsonExactly answer.body)
      fun _ final => ∀ answer ∈ final.sent,
        answer.contentType ≠ "text/plain; version=0.0.4".toList →
          JsonExactly answer.body := by
  have fresh : ∀ {final : Session σ},
      Within (Licensed impl chunks) { world := world } final →
      ∀ answer ∈ final.sent,
        answer.contentType ≠ "text/plain; version=0.0.4".toList →
          JsonExactly answer.body := by
    intro final within answer member other
    have sound := (within.sent answer member).resolve_left List.not_mem_nil
    rcases List.mem_cons.mp sound.typed with json | text
    · exact sound.json json
    · exact absurd (List.mem_singleton.mp text) other
  exact (does_handle impl chunks { world := world }).mono
    (fun _ _ within => fresh within) fun _ _ within => fresh within

end Routes

end Api

end RawImport
