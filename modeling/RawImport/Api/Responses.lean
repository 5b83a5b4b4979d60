import RawImport.Api.Handle

/-!
# One response for each request

Every position that `handle` computes in a request stays inside it.  What can
raise is a number conversion, and only two routes convert without catching, so
a request is answered with exactly one response unless it takes one of them
with a text that is no number.
-/

namespace RawImport

namespace Api

open Cxx Effect Search

variable {σ α : Type}

/-! ## Rules -/

/-- An operation of the accept thread, or a rotation. -/
def Call.Known : Call → Prop
  | .store operation =>
      operation ∈ (Server.Thread.accept : Server.Thread 0).calls
  | .queue _ _ _ _ => True

def CallsKnown (session final : Session σ) : Prop :=
  ∀ call ∈ final.calls, call ∈ session.calls ∨ call.Known

/-- The program returns, has sent one response, and that is no refusal. -/
def Answers (program : Handler σ Unit) : Prop :=
  ∀ session, Ends program session
    (fun _ final =>
      (∃ answer, final.sent = session.sent ++ [answer] ∧
        answer.code ≠ 401) ∧ CallsKnown session final)
    fun _ _ => False

/-- The program raises before it has sent or called anything. -/
def Raises (program : Handler σ Unit) : Prop :=
  ∀ session, Ends program session (fun _ _ => False)
    fun _ final => final.sent = session.sent ∧ final.calls = session.calls

theorem CallsKnown.refl (session : Session σ) : CallsKnown session session :=
  fun _ member => .inl member

theorem CallsKnown.trans {session middle final : Session σ}
    (first : CallsKnown session middle) (second : CallsKnown middle final) :
    CallsKnown session final := by
  intro call member
  rcases second call member with old | known
  · exact first call old
  · exact .inr known

theorem callsKnown_append {session final : Session σ} {call : Call}
    (known : call.Known) (appended : final.calls = session.calls ++ [call]) :
    CallsKnown session final := by
  intro other member
  rw [appended] at member
  rcases List.mem_append.mp member with old | new
  · exact .inl old
  · cases List.mem_singleton.mp new
    exact .inr known

theorem answers_sendResponse {code : Nat} (body contentType : Text)
    (accepted : code ≠ 401) :
    Answers (sendResponse code body contentType : Handler σ Unit) := by
  intro session
  exact ⟨⟨_, rfl, accepted⟩, CallsKnown.refl session⟩

theorem answers_sendError {code : Nat} (error : String)
    (accepted : code ≠ 401) :
    Answers (sendError code error : Handler σ Unit) :=
  answers_sendResponse _ _ accepted

section Rules

variable {next : α → Handler σ Unit}

theorem Answers.ite {condition : Prop} [Decidable condition]
    {first second : Handler σ Unit} (yes : condition → Answers first)
    (no : ¬condition → Answers second) :
    Answers (if condition then first else second) := by
  split
  · rename_i holds
    exact yes holds
  · rename_i fails
    exact no fails

theorem Answers.act {step : Session σ → α × Session σ}
    (silent : ∀ session, (step session).2.sent = session.sent)
    (known : ∀ session, CallsKnown session (step session).2)
    (rest : ∀ value, Answers (next value)) :
    Answers (Effect.act step >>= next) := by
  intro session
  apply ends_bind.mpr
  apply (rest _ _).mono
  · intro _ final answered
    obtain ⟨sent, calls⟩ := answered
    rw [silent] at sent
    exact ⟨sent, (known session).trans calls⟩
  · intro _ _ raised
    exact raised

theorem Answers.callStore {operation : Server.StoreOperation}
    {step : σ → α × σ}
    (known : operation ∈ (Server.Thread.accept : Server.Thread 0).calls)
    (rest : ∀ value, Answers (next value)) :
    Answers (Api.callStore operation step >>= next) := by
  have new : Call.Known (.store operation) := known
  exact Answers.act (fun _ => rfl) (fun _ => callsKnown_append new rfl) rest

theorem Answers.check {result : Except StdException α}
    (returns : ∃ value, result = .ok value)
    (rest : ∀ value, result = .ok value → Answers (next value)) :
    Answers (Effect.check result >>= next) := by
  obtain ⟨value, rfl⟩ := returns
  exact rest value rfl

theorem Raises.check {result : Except StdException α}
    (rest : ∀ value, result = .ok value → Raises (next value)) :
    Raises (Effect.check result >>= next) := by
  intro session
  apply ends_bind.mpr
  cases result with
  | ok value => exact rest value rfl session
  | error exception => exact ⟨rfl, rfl⟩

end Rules

/-! ## The positions -/

theorem requestLine_ok (req : Text) :
    ∃ parsed, requestLine req = .ok parsed := by
  unfold requestLine
  dsimp only
  split
  · rename_i sp1 sp2 first second
    rw [substr_ok (Nat.zero_le _), substr_ok (find_singleton first)]
    simp only [ok_bind]
    split
    · exact ⟨_, rfl⟩
    · rename_i qpos question
      rw [substr_ok (Nat.zero_le _),
        substrFrom_ok (find_singleton question)]
      exact ⟨_, rfl⟩
  · exact ⟨none, rfl⟩

/-- A request line with a query is taken apart as it was written. -/
theorem requestLine_query {method path query rest : Text}
    (methodWhole : ' ' ∉ method) (pathWhole : ' ' ∉ path)
    (queryWhole : ' ' ∉ query) (question : '?' ∉ path)
    (small : (method ++ ' ' :: (path ++ '?' :: query)).length < 2 ^ 64) :
    requestLine (method ++ ' ' :: ((path ++ '?' :: query) ++ ' ' :: rest)) =
      .ok (some (method, path, query)) := by
  have whole : ' ' ∉ path ++ '?' :: query := by
    intro member
    rcases List.mem_append.mp member with inPath | inQuery
    · exact pathWhole inPath
    · rcases List.mem_cons.mp inQuery with same | inQuery
      · cases same
      · exact queryWhole inQuery
  have question' : find ['?'] (path ++ '?' :: query) = some path.length :=
    find_of_not_mem query question
  generalize full : path ++ '?' :: query = target at whole small question' ⊢
  have first : find [' '] (method ++ ' ' :: (target ++ ' ' :: rest)) =
      some method.length :=
    find_of_not_mem _ methodWhole
  have behind : (method ++ ' ' :: (target ++ ' ' :: rest)).drop
      (method.length + 1) = target ++ ' ' :: rest := by
    rw [List.drop_append, List.drop_of_length_le (Nat.le_succ _)]
    simp
  have room : method.length + 1 ≤
      (method ++ ' ' :: (target ++ ' ' :: rest)).length := by
    rw [List.length_append, List.length_cons]
    omega
  have second : findFrom [' '] (method ++ ' ' :: (target ++ ' ' :: rest))
      (method.length + 1) = some (method.length + 1 + target.length) := by
    unfold findFrom
    rw [if_pos room, behind]
    exact congrArg _ (find_of_not_mem rest whole)
  have length : (method ++ ' ' :: target).length =
      method.length + 1 + target.length := by
    rw [List.length_append, List.length_cons]
    omega
  have size : sizeSub (sizeSub (method.length + 1 + target.length)
      method.length) 1 = target.length := by
    have inner : sizeSub (method.length + 1 + target.length) method.length =
        target.length + 1 := by
      rw [sizeSub_of_le (by omega) (by omega)]
      omega
    rw [inner, sizeSub_of_le (by omega) (by omega)]
    omega
  unfold requestLine
  simp only [first, Option.map_some, Option.getD_some, second, size,
    substr_ok (Nat.zero_le _), substr_ok room, behind, ok_bind,
    List.drop_zero, List.take_left, question']
  have inside : path.length + 1 ≤ target.length := by
    rw [← full, List.length_append, List.length_cons]
    omega
  rw [substrFrom_ok inside, ← full, List.take_left, List.drop_append,
    List.drop_of_length_le (Nat.le_succ _)]
  simp

theorem ne_nil_of_requestLine {req method path query : Text}
    (line : requestLine req = .ok (some (method, path, query))) :
    req ≠ [] := by
  rintro rfl
  cases line

theorem checkToken_ok (apiToken req : Text) :
    ∃ passes, checkToken apiToken req = .ok passes := by
  unfold checkToken
  split
  · exact ⟨false, rfl⟩
  · split
    · exact ⟨false, rfl⟩
    · rename_i ah _ b bearer
      obtain ⟨-, -, room⟩ := findFrom_eq_some bearer
      have behind : b + 7 ≤ req.length := room
      rw [substrFrom_ok behind]
      simp only [ok_bind]
      split
      · exact ⟨_, rfl⟩
      · rw [substr_ok (Nat.zero_le _)]
        exact ⟨_, rfl⟩

theorem authorized_ok (config : Config) (req path : Text) :
    ∃ passes, authorized config req path = .ok passes := by
  unfold authorized
  split
  · exact checkToken_ok _ req
  · exact ⟨true, rfl⟩

theorem bodyOf_ok (req : Text) : ∃ body, bodyOf req = .ok body := by
  unfold bodyOf
  split
  · exact ⟨[], rfl⟩
  · rename_i bpos blank
    have room : bpos + 4 ≤ req.length := find_bound blank
    exact ⟨_, substrFrom_ok room⟩

theorem substrFrom_of_starts {start path : Text} (stands : start <+: path) :
    substrFrom path start.length = .ok (path.drop start.length) :=
  substrFrom_ok stands.length_le

/-! ## Routes that always answer -/

section Routes

variable (impl : Impl σ)

theorem answers_ready : Answers (ready impl) := by
  apply Answers.callStore (by decide)
  intro dbOk
  split
  · exact answers_sendResponse _ _ (by decide)
  · exact answers_sendResponse _ _ (by decide)

theorem answers_metrics : Answers (metrics impl) := by
  apply Answers.act (fun _ => rfl) CallsKnown.refl
  intro text
  exact answers_sendResponse _ _ (by decide)

theorem answers_stats : Answers (stats impl) := by
  apply Answers.callStore (by decide)
  intro s
  exact answers_sendResponse _ _ (by decide)

theorem answers_answerRecord (r : Option ImportRecord) :
    Answers (answerRecord r : Handler σ Unit) := by
  unfold answerRecord
  split
  · exact answers_sendError _ (by decide)
  · exact answers_sendResponse _ _ (by decide)

theorem answers_byHash {path : Text}
    (stands : "/api/v1/imports/hash/".toList <+: path) :
    Answers (byHash impl path) := by
  apply Answers.check ⟨_, substrFrom_of_starts stands⟩
  intro sha _
  exact Answers.callStore (by decide) answers_answerRecord

theorem answers_bySource (q : Params) : Answers (bySource impl q) :=
  Answers.callStore (by decide) answers_answerRecord

theorem answers_bySequence {path : Text}
    (stands : "/api/v1/imports/".toList <+: path) :
    Answers (bySequence impl path) := by
  apply Answers.check ⟨_, substrFrom_of_starts stands⟩
  intro seq _
  exact Answers.callStore (by decide) answers_answerRecord

theorem answers_reconvert (req : Text) {path : Text}
    (stands : "/api/v1/imports/".toList <+: path) :
    Answers (reconvert impl req path) := by
  apply Answers.check ⟨_, substrFrom_of_starts stands⟩
  intro seq _
  apply Answers.check ⟨_, substr_ok (Nat.zero_le _)⟩
  intro seq _
  apply Answers.callStore (by decide)
  intro r
  split
  · exact answers_sendError _ (by decide)
  · apply Answers.check (bodyOf_ok req)
    intro body _
    apply Answers.check (jsonGet_ok body _)
    intro compression _
    apply Answers.check (jsonGet_ok body _)
    intro reason _
    apply Answers.callStore (by decide)
    intro rid
    exact answers_sendResponse _ _ (by decide)

theorem answers_previewUpdatedRoute (req : Text) :
    Answers (previewUpdatedRoute impl req) := by
  apply Answers.check (bodyOf_ok req)
  intro body _
  apply Answers.check (jsonGet_ok body _)
  intro op _
  split
  · exact answers_sendError _ (by decide)
  · apply Answers.callStore (by decide)
    intro r
    split
    · exact answers_sendError _ (by decide)
    · apply Answers.act (fun _ => rfl) CallsKnown.refl
      intro newHash
      split
      · exact answers_sendError _ (by decide)
      · apply Answers.callStore (by decide)
        intro _
        apply Answers.callStore (by decide)
        intro _
        exact answers_sendResponse _ _ (by decide)

/-! ## The two routes that convert -/

/-- The text does not start with a number that fits an `int`. -/
def NoInt (text : Text) : Prop :=
  ∀ value, stoi text ≠ .ok value

def BadPaging (q : Params) : Prop :=
  ∃ key text, (key = "page" ∨ key = "limit") ∧
    q.get key.toList = some text ∧ NoInt text

def BadOrientation (req : Text) : Prop :=
  ∃ body text, bodyOf req = .ok body ∧
    jsonGet body "orientation".toList = .ok text ∧ text ≠ [] ∧ NoInt text

theorem stoi_ok_of_not_noInt {text : Text} (number : ¬NoInt text) :
    ∃ value, stoi text = .ok value := by
  unfold NoInt at number
  push Not at number
  exact number

section IntParam

variable {q : Params} {key : String} {missing : Int}
  {next : Int → Handler σ Unit}

theorem Answers.intParam
    (readable : ∀ text, q.get key.toList = some text → ¬NoInt text)
    (rest : ∀ value, Answers (next value)) :
    Answers (Api.intParam q key missing >>= next) := by
  unfold Api.intParam
  split
  · rename_i text here
    exact Answers.check (stoi_ok_of_not_noInt (readable text here))
      fun value _ => rest value
  · exact rest missing

theorem Raises.intParam (rest : ∀ value, Raises (next value)) :
    Raises (Api.intParam q key missing >>= next) := by
  unfold Api.intParam
  split
  · exact Raises.check fun value _ => rest value
  · exact rest missing

theorem raises_intParam {text : Text}
    (here : q.get key.toList = some text) (unreadable : NoInt text) :
    Raises (Api.intParam q key missing >>= next) := by
  unfold Api.intParam
  rw [here]
  exact Raises.check fun value converted =>
    (unreadable value converted).elim

end IntParam

theorem answers_listing {q : Params} (readable : ¬BadPaging q) :
    Answers (listing impl q) := by
  apply Answers.intParam
  · intro text here unreadable
    exact readable ⟨"page", text, .inl rfl, here, unreadable⟩
  · intro page
    apply Answers.intParam
    · intro text here unreadable
      exact readable ⟨"limit", text, .inr rfl, here, unreadable⟩
    · intro limit
      apply Answers.callStore (by decide)
      intro rows
      apply Answers.callStore (by decide)
      intro s
      exact answers_sendResponse _ _ (by decide)

theorem raises_listing {q : Params} (unreadable : BadPaging q) :
    Raises (listing impl q) := by
  obtain ⟨key, text, which, here, unreadable⟩ := unreadable
  rcases which with rfl | rfl
  · exact raises_intParam here unreadable
  · apply Raises.intParam
    intro page
    exact raises_intParam here unreadable

theorem answers_queueRotation (queue : Int → Path → Int → String → σ → σ)
    (body sp : Text) (orient : Int) :
    Answers (queueRotation impl queue body sp orient) := by
  apply Answers.check (jsonGet_ok body _)
  intro client _
  apply Answers.callStore (by decide)
  intro r
  split
  · exact answers_sendError _ (by decide)
  · rename_i r
    have known : Call.Known
        (.queue r.id r.outputPath orient (String.ofList client)) :=
      trivial
    apply Answers.act (fun _ => rfl) (fun _ => callsKnown_append known rfl)
    intro _
    exact answers_sendResponse _ _ (by decide)

theorem answers_rotationUpdated {req : Text}
    (readable : impl.queue ≠ none → ¬BadOrientation req) :
    Answers (rotationUpdated impl req) := by
  unfold rotationUpdated
  split
  · exact answers_sendError _ (by decide)
  · rename_i queue enabled
    have number := readable (by rw [enabled]; exact Option.some_ne_none _)
    apply Answers.check (bodyOf_ok req)
    intro body extracted
    apply Answers.check (jsonGet_ok body _)
    intro sp _
    apply Answers.check (jsonGet_ok body _)
    intro os found
    split
    · exact answers_queueRotation impl queue body sp 1
    · rename_i given
      apply Answers.check _ fun orient _ =>
        answers_queueRotation impl queue body sp orient
      apply stoi_ok_of_not_noInt
      intro unreadable
      exact number ⟨body, os, extracted, found, given, unreadable⟩

theorem raises_rotationUpdated {req : Text} (enabled : impl.queue ≠ none)
    (unreadable : BadOrientation req) : Raises (rotationUpdated impl req) := by
  obtain ⟨body, text, extracted, found, given, unreadable⟩ := unreadable
  unfold rotationUpdated
  split
  · rename_i disabled
    exact (enabled disabled).elim
  · apply Raises.check
    intro body' extracted'
    rw [extracted] at extracted'
    cases extracted'
    apply Raises.check
    intro sp _
    apply Raises.check
    intro os found'
    rw [found] at found'
    cases found'
    rw [if_neg given]
    apply Raises.check
    intro orient converted
    exact (unreadable orient converted).elim

/-! ## The whole handler -/

/-- The request takes one of the two with a text that is no number. -/
def Unguarded (req method path : Text) (q : Params) : Prop :=
  (method = "GET".toList ∧ path = "/api/v1/imports".toList ∧ BadPaging q) ∨
    (method = "POST".toList ∧
      path = "/api/v1/imports/by-source/rotation-updated".toList ∧
      impl.queue ≠ none ∧ BadOrientation req)

theorem answers_route {req method path : Text} {q : Params}
    (guarded : ¬Unguarded impl req method path q) :
    Answers (route impl req method path q) := by
  apply Answers.ite
  · intro _
    exact answers_sendResponse _ _ (by decide)
  intro _
  apply Answers.ite
  · intro _
    exact answers_ready impl
  intro _
  apply Answers.ite
  · intro _
    exact answers_metrics impl
  intro _
  apply Answers.ite
  · intro _
    exact answers_stats impl
  intro _
  apply Answers.ite
  · intro _
    exact answers_sendResponse _ _ (by decide)
  intro _
  apply Answers.ite
  · intro taken
    apply answers_listing impl
    intro unreadable
    exact guarded (.inl ⟨taken.1, taken.2, unreadable⟩)
  intro _
  apply Answers.ite
  · intro taken
    exact answers_byHash impl taken.2
  intro _
  apply Answers.ite
  · intro _
    exact answers_bySource impl q
  intro _
  apply Answers.ite
  · intro taken
    exact answers_bySequence impl taken.2
  intro _
  apply Answers.ite
  · intro taken
    exact answers_reconvert impl req taken.2.1
  intro _
  apply Answers.ite
  · intro _
    exact answers_previewUpdatedRoute impl req
  intro _
  apply Answers.ite
  · intro taken
    apply answers_rotationUpdated impl
    intro enabled unreadable
    exact guarded (.inr ⟨taken.1, taken.2, enabled, unreadable⟩)
  · intro _
    exact answers_sendError _ (by decide)

theorem raises_route {req method path : Text} {q : Params}
    (unguarded : Unguarded impl req method path q) :
    Raises (route impl req method path q) := by
  rcases unguarded with ⟨rfl, rfl, unreadable⟩ |
    ⟨rfl, rfl, enabled, unreadable⟩
  · have taken : route impl req "GET".toList "/api/v1/imports".toList q =
        listing impl q := by
      rfl
    rw [taken]
    exact raises_listing impl unreadable
  · have taken : route impl req "POST".toList
        "/api/v1/imports/by-source/rotation-updated".toList q =
          rotationUpdated impl req := by
      rfl
    rw [taken]
    exact raises_rotationUpdated impl enabled unreadable

/-- The request reaches the routes with this method, path and query. -/
structure Routed (req method path : Text) (q : Params) : Prop where
  line : ∃ query, requestLine req = .ok (some (method, path, query)) ∧
    parseQuery query = .ok q
  passes : authorized impl.config req path = .ok true

/-- What `handle` does with a text, by how far the text gets. -/
inductive Outcome (req : Text) : Handler σ Unit → Prop where
  | empty : req = [] → Outcome req (sendError 400 "empty")
  | badRequest : requestLine req = .ok none →
      Outcome req (sendError 400 "bad-request")
  | refused {method path query : Text} :
      requestLine req = .ok (some (method, path, query)) →
      authorized impl.config req path = .ok false →
      Outcome req (sendError 401 "unauthorized")
  | routed {method path : Text} {q : Params} :
      Routed impl req method path q →
      Outcome req (route impl req method path q)

theorem respond_of_line {req method path query : Text} {q : Params}
    {ok : Bool} (line : requestLine req = .ok (some (method, path, query)))
    (params : parseQuery query = .ok q)
    (gate : authorized impl.config req path = .ok ok) :
    respond impl req =
      if ok then route impl req method path q
      else sendError 401 "unauthorized" := by
  unfold respond
  rw [if_neg (ne_nil_of_requestLine line), line]
  change (do
    let q ← check (parseQuery query)
    let ok ← check (authorized impl.config req path)
    if ok then route impl req method path q
    else sendError 401 "unauthorized") = _
  rw [params, gate]
  rfl

theorem respond_routed {req method path : Text} {q : Params}
    (routed : Routed impl req method path q) :
    respond impl req = route impl req method path q := by
  obtain ⟨query, line, params⟩ := routed.line
  exact respond_of_line impl line params routed.passes

theorem respond_refused {req method path query : Text}
    (line : requestLine req = .ok (some (method, path, query)))
    (gate : authorized impl.config req path = .ok false) :
    respond impl req = sendError 401 "unauthorized" := by
  obtain ⟨q, params⟩ := parseQuery_ok query
  exact respond_of_line impl line params gate

theorem respond_cases (req : Text) :
    Outcome impl req (respond impl req) := by
  by_cases empty : req = []
  · have first : respond impl req = sendError 400 "empty" := if_pos empty
    rw [first]
    exact .empty empty
  · obtain ⟨parsed, line⟩ := requestLine_ok req
    cases parsed with
    | none =>
        have second : respond impl req = sendError 400 "bad-request" := by
          unfold respond
          rw [if_neg empty, line]
          rfl
        rw [second]
        exact .badRequest line
    | some parsed =>
        obtain ⟨method, path, query⟩ := parsed
        obtain ⟨q, params⟩ := parseQuery_ok query
        obtain ⟨ok, gate⟩ := authorized_ok impl.config req path
        rw [respond_of_line impl line params gate]
        cases ok with
        | true => exact .routed ⟨⟨query, line, params⟩, gate⟩
        | false => exact .refused line gate

end Routes

def EndsWithOne (program : Handler σ Unit) (world : σ) : Prop :=
  Ends program { world := world } (fun _ final => final.sent.length = 1)
    fun _ _ => False

theorem Answers.endsWithOne {program : Handler σ Unit}
    (answers : Answers program) (world : σ) : EndsWithOne program world := by
  apply (answers _).mono
  · intro _ final answered
    obtain ⟨⟨answer, sent, -⟩, -⟩ := answered
    rw [sent]
    rfl
  · intro _ _ raised
    exact raised

theorem Raises.not_endsWithOne {program : Handler σ Unit}
    (raises : Raises program) (world : σ) : ¬EndsWithOne program world := by
  intro ends
  exact Ends.absurd (raises _) ends

theorem endsWithOne_sendError (code : Nat) (error : String) (world : σ) :
    EndsWithOne (sendError code error) world :=
  rfl

theorem handle_eq (impl : Impl σ) {chunks : List Chunk} {req : Text}
    (read : readRequest chunks = .ok req) :
    handle impl chunks = respond impl req := by
  unfold handle
  rw [read]
  rfl

/-- A request is answered with exactly one response, and no exception leaves
the handler, exactly when it does not take an unguarded conversion with a text
that is no number. -/
theorem handle_answers_iff (impl : Impl σ) (chunks : List Chunk) (world : σ) :
    EndsWithOne (handle impl chunks) world ↔
      ∀ req method path q, readRequest chunks = .ok req →
        Routed impl req method path q →
          ¬Unguarded impl req method path q := by
  constructor
  · intro ends req method path q read routed unguarded
    rw [handle_eq impl read, respond_routed impl routed] at ends
    exact (raises_route impl unguarded).not_endsWithOne world ends
  · intro guarded
    obtain ⟨req, read⟩ := readLoop_ok {} chunks
    rw [handle_eq impl read]
    have outcome := respond_cases impl req
    generalize respond impl req = program at outcome ⊢
    cases outcome with
    | empty empty => exact endsWithOne_sendError 400 "empty" world
    | badRequest line => exact endsWithOne_sendError 400 "bad-request" world
    | refused line gate => exact endsWithOne_sendError 401 "unauthorized" world
    | routed routed =>
        apply Answers.endsWithOne
        exact answers_route impl (guarded req _ _ _ read routed)

theorem route_callsKnown (impl : Impl σ) (req method path : Text)
    (q : Params) (world : σ) :
    Ends (route impl req method path q) { world := world }
      (fun _ final => CallsKnown { world := world } final)
      fun _ final => CallsKnown { world := world } final := by
  by_cases unguarded : Unguarded impl req method path q
  · apply (raises_route impl unguarded _).mono
    · intro _ _ impossible
      exact impossible.elim
    · intro _ final silent call member
      rw [silent.2] at member
      exact .inl member
  · apply (answers_route impl unguarded _).mono
    · intro _ final answered
      exact answered.2
    · intro _ _ impossible
      exact impossible.elim

/-- However a request ends, its operations on the connection are those the
accept thread has in the model of the threads. -/
theorem handle_callsKnown (impl : Impl σ) (chunks : List Chunk) (world : σ) :
    Ends (handle impl chunks) { world := world }
      (fun _ final => ∀ call ∈ final.calls, call.Known)
      fun _ final => ∀ call ∈ final.calls, call.Known := by
  have fresh : ∀ final : Session σ,
      CallsKnown { world := world } final →
        ∀ call ∈ final.calls, call.Known := by
    intro final known call member
    rcases known call member with old | new
    · cases old
    · exact new
  obtain ⟨req, read⟩ := readLoop_ok {} chunks
  rw [handle_eq impl read]
  have outcome := respond_cases impl req
  generalize respond impl req = program at outcome ⊢
  cases outcome with
  | empty empty => exact fresh _ (CallsKnown.refl _)
  | badRequest line => exact fresh _ (CallsKnown.refl _)
  | refused line gate => exact fresh _ (CallsKnown.refl _)
  | routed routed =>
      apply (route_callsKnown impl req _ _ _ world).mono
      · intro _ final known
        exact fresh final known
      · intro _ final known
        exact fresh final known

/-- A server without tables, token or rotation manager. -/
def bare : Impl Unit :=
  { config := {}
    client :=
      { execute := fun _ world => ({}, world)
        ping := fun world => (true, world) }
    sha256File := fun _ world => ("", world)
    render := fun _ => []
    queue := none }

def pageX : Chunk :=
  ⟨"GET /api/v1/imports?page=x HTTP/1.1\r\n\r\n".toList, by decide,
    by decide⟩

/-- A listing whose page is no number ends with the exception of `stoi`. -/
theorem page_without_number :
    ¬∀ (impl : Impl Unit) (chunks : List Chunk),
      EndsWithOne (handle impl chunks) () := by
  intro every
  have ended := every bare [pageX]
  have raised : (run (handle bare [pageX]) { world := () }).1 =
      .error .invalidArgument := by
    decide +kernel
  unfold EndsWithOne Ends at ended
  split at ended
  · rename_i value final returned
    rw [returned] at raised
    cases raised
  · exact ended

end Api

end RawImport
