import RawImport.Api.Responses
import RawImport.Plugin.Commands

/-!
# The by-source query between plugin and server

The plugin writes blanks in the path as `%20`; `parse_query` takes the value
as it stands.  What lies between the two is `curl`, which requests what the
URL has behind its base.
-/

namespace RawImport

open Api Cxx Effect Search ShellWords

/-- The client library with a record of the statements it was given. -/
def Client.logged {σ : Type} (client : Client σ) :
    Client (σ × List Statement) where
  execute statement state :=
    let (reply, world) := client.execute statement state.1
    (reply, (world, state.2 ++ [statement]))
  ping state :=
    let (alive, world) := client.ping state.1
    (alive, (world, state.2))

def Api.Impl.logged {σ : Type} (impl : Impl σ) :
    Impl (σ × List Statement) where
  config := impl.config
  client := impl.client.logged
  sha256File path state :=
    let (hash, world) := impl.sha256File path state.1
    (hash, (world, state.2))
  render state := impl.render state.1
  queue := impl.queue.map fun queue importId path orientation client state =>
    (queue importId path orientation client state.1, state.2)

namespace Plugin

variable {σ : Type}

def statements (impl : Impl σ) (world : σ) (chunks : List Chunk) :
    List Statement :=
  (run (handle impl.logged chunks) { world := (world, []) }).2.world.2

def bySourcePath : Text := "/api/v1/imports/by-source".toList

/-- An absolute path of letters, digits, `/`, `.`, `_`, `-` and blanks. -/
structure SourcePath (path : Text) : Prop where
  absolute : path.head? = some '/'
  letters : ∀ c ∈ path, c.isAlphanum = true ∨ c ∈ "/._- ".toList

def UrlChar (c : Char) : Prop :=
  c.isAlphanum = true ∨ c ∈ "/._-%?=".toList

instance (c : Char) : Decidable (UrlChar c) :=
  inferInstanceAs (Decidable (_ ∨ _))

/-- `curl` requests what the URL has behind the base; the text of a request is
a function of the URL. -/
structure SendsTarget (base : Text) (fetch : Text → Text) : Prop where
  get : ∀ target, target.head? = some '/' → (∀ c ∈ target, UrlChar c) →
    ∃ rest, fetch (base ++ target) =
      "GET".toList ++ ' ' :: (target ++ ' ' :: rest)

/-- The server finds the path in the request and asks for it. -/
structure Agrees (impl : Impl σ) (world : σ) (chunks : List Chunk)
    (path : Text) : Prop where
  parameter : ∃ req query q, readRequest chunks = .ok req ∧
    requestLine req = .ok (some ("GET".toList, bySourcePath, query)) ∧
    parseQuery query = .ok q ∧ q.get "path".toList = some path
  asked : ∀ req, readRequest chunks = .ok req →
    authorized impl.config req bySourcePath = .ok true →
      statements impl world chunks =
        [.importBySourcePath (String.ofList path)]

section Escape

variable {path : Text}

theorem escapePath_eq (named : SourcePath path) :
    escapePath path = Lua.gsub ' ' "%20".toList path := by
  have unquoted : Lua.gsub '"' "\\\"".toList path = path := by
    apply Lua.gsub_of_not_mem
    intro quote
    rcases named.letters '"' quote with letter | special
    · revert letter
      decide
    · revert special
      decide
  unfold escapePath
  rw [unquoted]

theorem escapePath_urlChar (named : SourcePath path) :
    ∀ c ∈ escapePath path, UrlChar c := by
  intro c member
  rw [escapePath_eq named] at member
  rcases Lua.mem_gsub member with ⟨kept, different⟩ | replaced
  · rcases named.letters c kept with letter | special
    · exact .inl letter
    · right
      have cases' : c = '/' ∨ c = '.' ∨ c = '_' ∨ c = '-' ∨ c = ' ' := by
        simpa using special
      rcases cases' with rfl | rfl | rfl | rfl | rfl
      · decide
      · decide
      · decide
      · decide
      · exact (different rfl).elim
  · have cases' : c = '%' ∨ c = '2' ∨ c = '0' := by
      simpa using replaced
    rcases cases' with rfl | rfl | rfl
    · exact .inr (by decide)
    · exact .inl (by decide)
    · exact .inl (by decide)

theorem escapePath_eq_self_iff (named : SourcePath path) :
    escapePath path = path ↔ ' ' ∉ path := by
  rw [escapePath_eq named]
  exact Lua.gsub_eq_self_iff (by decide)

end Escape

section Request

variable {impl : Impl σ} {world : σ} {base path : Text}
  {fetch : Text → Text} {chunks : List Chunk}

theorem resolveTarget_eq (path : Text) :
    resolveTarget path = bySourcePath ++
      '?' :: ("path".toList ++ '=' :: escapePath path) := by
  have start : "/api/v1/imports/by-source?path=".toList =
      bySourcePath ++ '?' :: ("path".toList ++ ['=']) := by
    decide +kernel
  unfold resolveTarget
  rw [start]
  simp only [List.append_assoc, List.cons_append, List.nil_append]

theorem resolveTarget_urlChar (named : SourcePath path) :
    ∀ c ∈ resolveTarget path, UrlChar c := by
  intro c member
  rcases List.mem_append.mp member with fixed | escaped
  · have all : ∀ c ∈ "/api/v1/imports/by-source?path=".toList,
        UrlChar c :=
      List.all_iff_forall_prop.mp (by decide +kernel)
    exact all c fixed
  · exact escapePath_urlChar named c escaped

theorem resolveTarget_head (path : Text) :
    (resolveTarget path).head? = some '/' := by
  have start : "/api/v1/imports/by-source?path=".toList =
      '/' :: "api/v1/imports/by-source?path=".toList := by
    decide +kernel
  unfold resolveTarget
  rw [start]
  rfl

/-- The words of the header option, if there is a token. -/
def authWords (token : Text) : List Text :=
  if token = [] then []
  else ["-H".toList, "Authorization: Bearer ".toList ++ token]

theorem resolve_words {token : Text} (configured : Configured base token)
    (named : SourcePath path) :
    words (resolveDngViaApi base token path) =
      some (["curl".toList, "-s".toList] ++ authWords token ++
        [resolveUrl base path]) := by
  have quoted : ∀ c ∈ resolveUrl base path, Quoted c := by
    intro c member
    rcases List.mem_append.mp member with address | target
    · exact (configured.base c address).quoted
    · have letter := resolveTarget_urlChar named c target
      constructor
      · intro same
        subst same
        revert letter
        decide
      · intro same
        subst same
        revert letter
        decide
  have start : feed {} "curl -s ".toList =
      ⟨.plain, none, ["curl".toList, "-s".toList]⟩ := by
    decide +kernel
  have split : resolveDngViaApi base token path =
      "curl -s ".toList ++ (authHdr token ++
        ' ' :: ('"' :: (resolveUrl base path ++ ['"']))) := by
    have opening : " \"".toList = [' ', '"'] := by decide
    have closing : "\"".toList = ['"'] := by decide
    unfold resolveDngViaApi
    rw [opening, closing]
    simp only [List.append_assoc, List.cons_append, List.nil_append]
  have fed : feed {} (resolveDngViaApi base token path) =
      ⟨.plain, some (resolveUrl base path),
        ["curl".toList, "-s".toList] ++ authWords token⟩ := by
    rw [split, feed_append, start, feed_append,
      feed_authHdr configured.token]
    unfold authWords
    split
    · change feed ⟨.plain, none, ["curl".toList, "-s".toList] ++ []⟩ _ = _
      rw [feed_quotes quoted]
    · rw [feed_space, feed_quotes quoted]
      rfl
  unfold words
  rw [fed]
  rfl

theorem parsed_request (sends : SendsTarget base fetch)
    (named : SourcePath path)
    (read : readRequest chunks = .ok (fetch (resolveUrl base path))) :
    requestLine (fetch (resolveUrl base path)) =
        .ok (some ("GET".toList, bySourcePath,
          "path".toList ++ '=' :: escapePath path)) ∧
      parseQuery ("path".toList ++ '=' :: escapePath path) =
        .ok [("path".toList, escapePath path)] := by
  have absent : ∀ c, ¬UrlChar c → c ∉ escapePath path :=
    fun c other member => other (escapePath_urlChar named c member)
  have whole : ' ' ∉ "path".toList ++ '=' :: escapePath path := by
    intro member
    rcases List.mem_append.mp member with inKey | inValue
    · revert inKey
      decide
    · rcases List.mem_cons.mp inValue with same | inValue
      · revert same
        decide
      · exact absent ' ' (by decide) inValue
  constructor
  · obtain ⟨rest, text⟩ := sends.get (resolveTarget path)
      (resolveTarget_head path) (resolveTarget_urlChar named)
    have length := readRequest_length read
    unfold resolveUrl at length ⊢
    rw [text, resolveTarget_eq] at length ⊢
    apply requestLine_query (by decide) (by decide +kernel) whole
      (by decide +kernel)
    simp only [List.length_append, List.length_cons] at length ⊢
    omega
  · exact parseQuery_single (by decide) (by decide)
      (absent '&' (by decide)) (by decide)

theorem bySource_statements (q : Params) :
    Ends (bySource impl.logged q) { world := (world, []) }
      (fun _ final => final.world.2 = [.importBySourcePath
        (String.ofList ((q.get "path".toList).getD []))])
      fun _ final => final.world.2 = [.importBySourcePath
        (String.ofList ((q.get "path".toList).getD []))] := by
  unfold bySource callStore
  simp only [ends_bind, ends_act]
  generalize (Store.getImportBySourcePath impl.logged.client
    (String.ofList ((q.get "path".toList).getD [])) (world, [])).1 = found
  cases found with
  | none => rfl
  | some record => rfl

theorem statements_routed {req : Text} {q : Params}
    (read : readRequest chunks = .ok req)
    (routed : Routed impl.logged req "GET".toList bySourcePath q) :
    statements impl world chunks = [.importBySourcePath
      (String.ofList ((q.get "path".toList).getD []))] := by
  have route : route impl.logged req "GET".toList bySourcePath q =
      bySource impl.logged q := by
    rfl
  unfold statements
  rw [handle_eq impl.logged read, respond_routed impl.logged routed, route]
  exact (bySource_statements q).final

end Request

/-- The query between the two, for any server, address, path and chunks in
which the request is read: the server finds the path and asks for it exactly
when the path has no blank. -/
theorem resolve_agrees_iff (impl : Impl σ) (world : σ) {base path : Text}
    {fetch : Text → Text} (sends : SendsTarget base fetch)
    (named : SourcePath path) {chunks : List Chunk}
    (read : readRequest chunks = .ok (fetch (resolveUrl base path))) :
    Agrees impl world chunks path ↔ ' ' ∉ path := by
  obtain ⟨line, params⟩ := parsed_request sends named read
  have value : Params.get [("path".toList, escapePath path)]
      "path".toList = some (escapePath path) := by
    simp [Params.get]
  rw [← escapePath_eq_self_iff named]
  constructor
  · intro agrees
    obtain ⟨req, query, q, read', line', params', found⟩ := agrees.parameter
    rw [read] at read'
    cases read'
    rw [line] at line'
    cases line'
    rw [params] at params'
    cases params'
    rw [value] at found
    exact Option.some.inj found
  · intro same
    constructor
    · refine ⟨_, _, _, read, line, params, ?_⟩
      rw [value, same]
    · intro req read' passes
      rw [read] at read'
      cases read'
      rw [statements_routed read ⟨⟨_, line, params⟩, passes⟩, value, same]
      rfl

/-- A request of `curl` with no header but the host. -/
def curl (base url : Text) : Text :=
  "GET".toList ++ ' ' :: (url.drop base.length ++ ' ' ::
    "HTTP/1.1\r\nHost: localhost:8080\r\n\r\n".toList)

theorem curl_sends (base : Text) : SendsTarget base (curl base) := by
  constructor
  intro target _ _
  exact ⟨_, by rw [curl, List.drop_left]⟩

def resolveRequest (path : Text) : Text :=
  curl "http://localhost:8080".toList
    (resolveUrl "http://localhost:8080".toList path)

def plainPath : Text := "/photos/2024/DSC_0001.NEF".toList

theorem resolve_agrees_plainPath :
    Agrees bare ()
      [⟨resolveRequest plainPath, by decide +kernel, by decide +kernel⟩]
      plainPath :=
  (resolve_agrees_iff bare () (curl_sends "http://localhost:8080".toList)
    ⟨by decide +kernel, List.all_iff_forall_prop.mp (by decide +kernel)⟩
    (by decide +kernel)).mpr (by decide +kernel)

def spacedPath : Text := "/photos/May 2024/DSC_0001.NEF".toList

/-- A path with a blank is asked for with the escape in it. -/
theorem spaced_path_stays_escaped :
    SourcePath spacedPath ∧
    statements bare ()
        [⟨resolveRequest spacedPath, by decide +kernel, by decide +kernel⟩] =
      [.importBySourcePath "/photos/May%202024/DSC_0001.NEF"] ∧
    ¬Agrees bare ()
      [⟨resolveRequest spacedPath, by decide +kernel, by decide +kernel⟩]
      spacedPath := by
  have asked : statements bare ()
      [⟨resolveRequest spacedPath, by decide +kernel, by decide +kernel⟩] =
      [.importBySourcePath "/photos/May%202024/DSC_0001.NEF"] := by
    decide +kernel
  refine ⟨⟨by decide +kernel,
    List.all_iff_forall_prop.mp (by decide +kernel)⟩, asked, ?_⟩
  intro agrees
  have exactly := agrees.asked (resolveRequest spacedPath)
    (by decide +kernel) (by decide +kernel)
  rw [asked] at exactly
  revert exactly
  decide +kernel

end Plugin

end RawImport
