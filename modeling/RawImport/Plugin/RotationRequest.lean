import RawImport.Api.Responses
import RawImport.Lib.Numeral
import RawImport.Plugin.Answer
import RawImport.Plugin.PreviewNotification
import RawImport.Plugin.RotationPress

/-!
# What a press of the rotation button does at the server

The shell takes the quotes of the body away, so the server finds no member in
it: it looks for the empty source path, which rows of an older library have,
and takes the orientation for 1.  With a token the address becomes a part of
the header, and nothing is sent.
-/

namespace RawImport

namespace Plugin

open Api Cxx Effect Search ShellWords

def receivedBody (sourcePath : Text) (orientation : Int) : Text :=
  "\x7bsource_path:".toList ++ sourcePath ++ ",orientation:".toList ++
    (toString orientation).toList ++
    ",client_id:darktable-lua\x7d".toList

/-- The words between the options and the type of the content. -/
def addressWords (base token : Text) : List Text :=
  if token = [] then [base ++ rotationTarget]
  else ["-H".toList,
    "Authorization: Bearer ".toList ++ token ++ (base ++ rotationTarget)]

/-- The arguments of `curl`, with the name of the program. -/
def pressWords (base token sourcePath : Text) (orientation : Int) :
    List Text :=
  options ++ addressWords base token ++ contentType ++
    ["-d".toList, receivedBody sourcePath orientation]

section Shell

variable {word : Text} {finished : List Text}

theorem feed_inside {text : Text} (quoted : ∀ c ∈ text, Quoted c)
    (rest : Text) :
    feed ⟨.plain, some word, finished⟩ ('"' :: (text ++ '"' :: rest)) =
      feed ⟨.plain, some (word ++ text), finished⟩ rest := by
  have opened : step ⟨.plain, some word, finished⟩ '"' =
      ⟨.double, some word, finished⟩ := by
    change Reading.mk _ (some (word ++ [])) _ = _
    rw [List.append_nil]
  rw [feed_cons, opened, feed_append, feed_double quoted]
  rfl

theorem feed_plain_append {text : Text} (plain : ∀ c ∈ text, Plain c)
    (rest : Text) :
    feed ⟨.plain, some word, finished⟩ (text ++ rest) =
      feed ⟨.plain, some (word ++ text), finished⟩ rest := by
  rw [feed_append, feed_plain plain]

theorem quoted_number (number : Int) :
    ∀ c ∈ (toString number).toList, Quoted c := by
  intro c member
  rcases Numeral.mem_toString member with digit | rfl
  · constructor
    · rintro rfl
      exact absurd digit (by decide)
    · rintro rfl
      exact absurd digit (by decide)
  · exact ⟨by decide, by decide⟩

theorem feed_tail (orientation : Int) :
    feed ⟨.plain, some word, finished⟩
        ("\",\"orientation\":".toList ++ (toString orientation).toList ++
          ",\"client_id\":\"darktable-lua\"\x7d".toList ++ ['"']) =
      ⟨.plain, some (word ++ ",orientation:".toList ++
        (toString orientation).toList ++
        ",client_id:darktable-lua\x7d".toList), finished⟩ := by
  generalize number : (toString orientation).toList = digits
  have quotedDigits : ∀ c ∈ digits, Quoted c := number ▸ quoted_number _
  have before : "\",\"orientation\":".toList =
      '"' :: ([','] ++ '"' :: ("orientation".toList ++ '"' :: [':'])) := rfl
  have behind : ",\"client_id\":\"darktable-lua\"\x7d".toList =
      ',' :: '"' :: ("client_id".toList ++ '"' :: ([':'] ++
        '"' :: ("darktable-lua".toList ++ '"' :: ['\x7d']))) := rfl
  have text : "\",\"orientation\":".toList ++ digits ++
      ",\"client_id\":\"darktable-lua\"\x7d".toList ++ ['"'] =
      '"' :: ([','] ++ '"' :: ("orientation".toList ++
        '"' :: ((':' :: (digits ++ [','])) ++ '"' :: ("client_id".toList ++
          '"' :: ([':'] ++ '"' :: ("darktable-lua".toList ++
            '"' :: (['\x7d'] ++ '"' :: []))))))) := by
    rw [before, behind]
    simp only [List.append_assoc, List.cons_append, List.nil_append]
  have middle : ∀ c ∈ ':' :: (digits ++ [',']), Quoted c := by
    intro c member
    rcases List.mem_cons.mp member with rfl | member
    · exact ⟨by decide, by decide⟩
    · rcases List.mem_append.mp member with digit | comma
      · exact quotedDigits c digit
      · rw [List.mem_singleton.mp comma]
        exact ⟨by decide, by decide⟩
  have outer : ",orientation:".toList =
      ',' :: ("orientation".toList ++ [':']) := rfl
  have last : ",client_id:darktable-lua\x7d".toList =
      ',' :: ("client_id".toList ++ ':' ::
        ("darktable-lua".toList ++ ['\x7d'])) := rfl
  rw [text, feed_inside (forall_of_all (by decide)),
    feed_plain_append (forall_of_all (by decide)), feed_inside middle,
    feed_plain_append (forall_of_all (by decide)),
    feed_inside (forall_of_all (by decide)),
    feed_plain_append (forall_of_all (by decide)),
    feed_inside (forall_of_all (by decide)), feed_nil, outer, last]
  simp only [List.append_assoc, List.cons_append, List.nil_append]

theorem feed_sourceBody (word : Text) (front : List Text) :
    feed ⟨.plain, some word, front⟩
        (" -H \"Content-Type: application/json\" -d \"".toList ++
          "\x7b\"source_path\":\"".toList) =
      ⟨.plain, some "\x7bsource_path:".toList,
        (front ++ [word]) ++ (contentType ++ ["-d".toList])⟩ := by
  have blank : " -H \"Content-Type: application/json\" -d \"".toList ++
      "\x7b\"source_path\":\"".toList =
      ' ' :: ("-H \"Content-Type: application/json\" -d \"".toList ++
        "\x7b\"source_path\":\"".toList) := by
    decide +kernel
  have body : feed {} ("-H \"Content-Type: application/json\" -d \"".toList ++
        "\x7b\"source_path\":\"".toList) =
      ⟨.plain, some "\x7bsource_path:".toList,
        contentType ++ ["-d".toList]⟩ := by
    decide +kernel
  rw [blank, feed_space, feed_between, body]
  rfl

variable {base token path : Text}

theorem rotationTarget_letters :
    (∀ c ∈ rotationTarget, Plain c) ∧ ∀ c ∈ rotationTarget, UrlChar c :=
  ⟨forall_of_all (by decide +kernel), forall_of_all (by decide +kernel)⟩

theorem feed_rotationAddress (configured : Configured base token) :
    ∃ front word,
      feed ⟨.plain, none, options⟩
          (authHdr token ++ (base ++ rotationTarget)) =
        ⟨.plain, some word, front⟩ ∧
      front ++ [word] = options ++ addressWords base token := by
  have all : ∀ c ∈ base ++ rotationTarget, Plain c := by
    intro c member
    rcases List.mem_append.mp member with address | target
    · exact configured.base c address
    · exact rotationTarget_letters.1 c target
  rw [feed_append, feed_authHdr configured.token]
  unfold addressWords
  split
  · refine ⟨options, base ++ rotationTarget, ?_, rfl⟩
    apply feed_plain_start _ all
    intro empty
    have target := (List.append_eq_nil_iff.mp empty).2
    revert target
    decide
  · refine ⟨options ++ ["-H".toList],
      "Authorization: Bearer ".toList ++ token ++ (base ++ rotationTarget),
      feed_plain all, ?_⟩
    rw [List.append_assoc]
    rfl

theorem press_words (configured : Configured base token)
    (plain : ∀ c ∈ path, Plain c) (orientation : Int) :
    words (postCommand (authHdr token) (base ++ rotationTarget)
        (rotationBody path orientation)) =
      some (pressWords base token path orientation) := by
  obtain ⟨front, word, fed, joined⟩ := feed_rotationAddress configured
  have noQuote : '"' ∉ path := fun member => (plain '"' member).2.2.2 rfl
  have escaped : Lua.gsub '"' "\\\"".toList path = path :=
    Lua.gsub_of_not_mem noQuote
  have quote : "\"".toList = ['"'] := rfl
  have cut : postCommand (authHdr token) (base ++ rotationTarget)
        (rotationBody path orientation) =
      "curl -s -o nul -w \"%\x7bhttp_code\x7d\" -X POST ".toList ++
        (authHdr token ++ (base ++ rotationTarget)) ++
        (" -H \"Content-Type: application/json\" -d \"".toList ++
          "\x7b\"source_path\":\"".toList) ++ (path ++
        ("\",\"orientation\":".toList ++ (toString orientation).toList ++
          ",\"client_id\":\"darktable-lua\"\x7d".toList ++ ['"'])) := by
    unfold postCommand rotationBody
    rw [escaped, quote]
    simp only [List.append_assoc]
  have start : feed {}
      ("curl -s -o nul -w \"%\x7bhttp_code\x7d\" -X POST ".toList ++
        (authHdr token ++ (base ++ rotationTarget))) =
      ⟨.plain, some word, front⟩ := by
    rw [feed_append, feed_options, fed]
  have fedAll : feed {} (postCommand (authHdr token)
      (base ++ rotationTarget) (rotationBody path orientation)) =
      ⟨.plain, some (receivedBody path orientation),
        (front ++ [word]) ++ (contentType ++ ["-d".toList])⟩ := by
    rw [cut, feed_append (_ ++ _), feed_append (_ ++ _), start,
      feed_sourceBody, feed_plain_append plain, feed_tail]
    rfl
  unfold words
  rw [fedAll]
  simp only [if_true, Reading.endWord, Option.toList_some, joined,
    pressWords, List.append_assoc, List.cons_append, List.nil_append]

end Shell

/-- A request line without a query is taken apart as it was written. -/
theorem requestLine_plain {method target rest : Text}
    (methodWhole : ' ' ∉ method) (whole : ' ' ∉ target)
    (noQuestion : '?' ∉ target)
    (small : (method ++ ' ' :: target).length < 2 ^ 64) :
    requestLine (method ++ ' ' :: (target ++ ' ' :: rest)) =
      .ok (some (method, target, [])) := by
  have first : find [' '] (method ++ ' ' :: (target ++ ' ' :: rest)) =
      some method.length :=
    find_of_not_mem _ methodWhole
  have behind : (method ++ ' ' :: (target ++ ' ' :: rest)).drop
      (method.length + 1) = target ++ ' ' :: rest := by
    rw [List.drop_append, List.drop_of_length_le (Nat.le_succ _)]
    simp
  have room : method.length + 1 ≤
      (method ++ ' ' :: (target ++ ' ' :: rest)).length := by
    rw [List.length_append, List.length_cons]
    omega
  have second : findFrom [' '] (method ++ ' ' :: (target ++ ' ' :: rest))
      (method.length + 1) = some (method.length + 1 + target.length) := by
    unfold findFrom
    rw [if_pos room, behind]
    exact congrArg _ (find_of_not_mem rest whole)
  have size : sizeSub (sizeSub (method.length + 1 + target.length)
      method.length) 1 = target.length := by
    rw [List.length_append, List.length_cons] at small
    have inner : sizeSub (method.length + 1 + target.length) method.length =
        target.length + 1 := by
      rw [sizeSub_of_le (by omega) (by omega)]
      omega
    rw [inner, sizeSub_of_le (by omega) (by omega)]
    omega
  unfold requestLine
  simp only [first, Option.map_some, Option.getD_some, second, size,
    substr_ok (Nat.zero_le _), substr_ok room, behind, ok_bind,
    List.drop_zero, List.take_left, find_eq_none noQuestion]
  rfl

/-- What `curl` does with these words: it posts the data to what the address
has behind the base, and without an address it sends nothing. -/
structure Posts (base : Text) (fetch : List Text → Option Text) : Prop where
  post : ∀ target data, (∀ c ∈ target, UrlChar c) →
    ∃ head, fetch (options ++ [base ++ target] ++ contentType ++
        ["-d".toList, data]) =
      some ("POST".toList ++ ' ' :: (target ++ ' ' ::
        (head ++ blankLine ++ data))) ∧
      find blankLine ("POST".toList ++ ' ' :: (target ++ ' ' ::
        (head ++ blankLine ++ data))) =
        some ("POST".toList ++ ' ' :: (target ++ ' ' :: head)).length
  silent : ∀ header data, fetch (options ++ ["-H".toList, header] ++
    contentType ++ ["-d".toList, data]) = none

def pressRequest (fetch : List Text → Option Text) (base token path : Text)
    (orientation : Int) : Option Text :=
  ((notifyRotationUpdated base token path orientation).bind words).bind fetch

variable {σ : Type}

/-- The calls of the server at a press: the empty source path is looked up,
and its record gets the orientation 1. -/
def pressCalls (impl : Impl σ) (world : σ) : List Call :=
  if impl.queue.isNone then []
  else
    .store .getImportBySourcePath ::
      ((Store.getImportBySourcePath impl.client "" world).1.map
        fun r => .queue r.id r.outputPath 1 "").toList

section Server

variable {base token path : Text} {fetch : List Text → Option Text}
  {world : σ} {chunks : List Chunk}

theorem quote_not_mem_receivedBody (plain : ∀ c ∈ path, Plain c)
    (orientation : Int) : '"' ∉ receivedBody path orientation := by
  unfold receivedBody
  simp only [List.mem_append, not_or]
  refine ⟨⟨⟨⟨by decide, ?_⟩, by decide⟩, ?_⟩, by decide⟩
  · exact fun member => (plain '"' member).2.2.2 rfl
  · exact fun member => (quoted_number orientation '"' member).1 rfl

theorem jsonGet_receivedBody (plain : ∀ c ∈ path, Plain c)
    (orientation : Int) (key : Text) :
    jsonGet (receivedBody path orientation) key = .ok [] := by
  have absent := quote_not_mem_receivedBody plain orientation
  have missing : find ('"' :: key ++ "\":".toList)
      (receivedBody path orientation) = none := by
    rw [List.cons_append]
    exact find_eq_none absent
  unfold jsonGet
  dsimp only
  rw [missing]

theorem bodyOf_of_find {front data : Text}
    (blank : find blankLine (front ++ (blankLine ++ data)) =
      some front.length) :
    bodyOf (front ++ (blankLine ++ data)) = .ok data := by
  have four : blankLine.length = 4 := rfl
  have bound : front.length + 4 ≤ (front ++ (blankLine ++ data)).length := by
    rw [List.length_append, List.length_append, four]
    omega
  unfold bodyOf
  rw [blank]
  change substrFrom _ (front.length + 4) = _
  rw [substrFrom_ok bound, ← List.append_assoc, List.drop_left']
  rw [List.length_append, four]

theorem rotationUpdated_calls (impl : Impl σ) {req body : Text}
    (sent : bodyOf req = .ok body)
    (nothing : ∀ key, jsonGet body key = .ok []) :
    Ends (rotationUpdated impl req) { world := world }
      (fun _ final => final.calls = pressCalls impl world)
      fun _ final => final.calls = pressCalls impl world := by
  unfold rotationUpdated pressCalls
  cases impl.queue with
  | none => rfl
  | some queue =>
      simp only [sent, ends_bind, ends_check_ok, nothing, if_true, ends_pure]
      unfold queueRotation callStore
      simp only [nothing, ends_bind, ends_check_ok, ends_act]
      have empty : String.ofList [] = "" := rfl
      rw [empty]
      generalize (Store.getImportBySourcePath impl.client "" world).1 = found
      cases found with
      | none => rfl
      | some record => rfl

theorem plain_of_named (named : SourcePath path) (whole : ' ' ∉ path) :
    ∀ c ∈ path, Plain c := by
  intro c member
  have other : ∀ d : Char, ¬(d.isAlphanum = true ∨ d ∈ "/._- ".toList) →
      c ≠ d := by
    rintro d unlike rfl
    exact unlike (named.letters c member)
  have blank : c ≠ ' ' := by
    rintro rfl
    exact whole member
  have tab : c ≠ '\t' := other '\t' (by decide)
  have newline : c ≠ '\n' := other '\n' (by decide)
  refine ⟨?_, other '\\' (by decide), other '\'' (by decide),
    other '"' (by decide)⟩
  simp [isBlank, blank, tab, newline]

theorem pressRequest_eq (configured : Configured base token)
    (addressed : base ≠ []) (plain : ∀ c ∈ path, Plain c)
    (orientation : Int) :
    pressRequest fetch base token path orientation =
      fetch (pressWords base token path orientation) := by
  unfold pressRequest notifyRotationUpdated
  rw [if_neg addressed, Option.bind_some, press_words configured plain,
    Option.bind_some]

/-- What a press of the button does: with a token nothing is sent; without
one, whatever image and orientation were chosen, the server looks for the
empty source path and gives its record the orientation 1. -/
theorem press_misses (impl : Impl σ) (configured : Configured base token)
    (addressed : base ≠ []) (named : SourcePath path) (whole : ' ' ∉ path)
    (posts : Posts base fetch) (orientation : Int) :
    (token ≠ [] →
      pressRequest fetch base token path orientation = none) ∧
    (token = [] →
      ∃ req, pressRequest fetch base token path orientation = some req ∧
        ∀ chunks, readRequest chunks = .ok req →
          ∃ passes, authorized impl.config req rotationTarget = .ok passes ∧
            (run (handle impl chunks) { world := world }).2.calls =
              if passes then pressCalls impl world else []) := by
  have plain := plain_of_named named whole
  rw [pressRequest_eq configured addressed plain]
  unfold pressWords addressWords
  constructor
  · intro withToken
    rw [if_neg withToken]
    exact posts.silent _ _
  · intro noToken
    rw [if_pos noToken]
    obtain ⟨head, fetched, blank⟩ := posts.post rotationTarget
      (receivedBody path orientation) rotationTarget_letters.2
    refine ⟨_, fetched, ?_⟩
    intro chunks read
    have line := @requestLine_plain "POST".toList rotationTarget
      (head ++ blankLine ++ receivedBody path orientation)
      (by decide +kernel) (by decide +kernel) (by decide +kernel)
      (by decide +kernel)
    obtain ⟨q, params⟩ := parseQuery_ok []
    obtain ⟨passes, gate⟩ := authorized_ok impl.config _ rotationTarget
    refine ⟨passes, gate, ?_⟩
    rw [handle_eq impl read]
    cases passes with
    | false =>
        rw [respond_refused impl line gate]
        rfl
    | true =>
        have sent := @bodyOf_of_find
          ("POST".toList ++ ' ' :: (rotationTarget ++ ' ' :: head))
          (receivedBody path orientation)
        have shape : "POST".toList ++ ' ' :: (rotationTarget ++ ' ' ::
              (head ++ blankLine ++ receivedBody path orientation)) =
            ("POST".toList ++ ' ' :: (rotationTarget ++ ' ' :: head)) ++
              (blankLine ++ receivedBody path orientation) := by
          simp only [List.append_assoc, List.cons_append]
        rw [← shape] at sent
        rw [respond_routed impl ⟨⟨_, line, params⟩, gate⟩]
        exact (rotationUpdated_calls impl (sent blank)
          (jsonGet_receivedBody plain orientation)).final

end Server

/-- A `curl` that sends no header but the host. -/
def curlPost (base : Text) : List Text → Option Text
  | [_, _, _, _, _, _, _, _, address, _, _, _, data] =>
      some ("POST".toList ++ ' ' :: (address.drop base.length ++ ' ' ::
        ("HTTP/1.1\r\nHost: localhost:8080".toList ++ blankLine ++ data)))
  | _ => none

theorem curlPost_posts (base : Text) : Posts base (curlPost base) := by
  constructor
  · intro target data urlChars
    refine ⟨"HTTP/1.1\r\nHost: localhost:8080".toList, ?_, ?_⟩
    · change some _ = some _
      rw [List.drop_left]
    · have absent : '\r' ∉ "POST".toList ++ ' ' :: (target ++ ' ' ::
          "HTTP/1.1".toList) := by
        intro member
        rcases List.mem_append.mp member with method | member
        · revert method
          decide
        · rcases List.mem_cons.mp member with same | member
          · cases same
          · rcases List.mem_append.mp member with inTarget | member
            · exact absurd (urlChars _ inTarget) (by decide)
            · revert member
              decide
      have head : "HTTP/1.1\r\nHost: localhost:8080".toList =
          "HTTP/1.1".toList ++ "\r\nHost: localhost:8080".toList := rfl
      have host : find blankLine
          ("\r\nHost: localhost:8080".toList ++ blankLine) = some 22 := by
        decide +kernel
      have shape : "POST".toList ++ ' ' :: (target ++ ' ' ::
          ("HTTP/1.1\r\nHost: localhost:8080".toList ++ blankLine ++ data)) =
          ("POST".toList ++ ' ' :: (target ++ ' ' :: "HTTP/1.1".toList)) ++
            (("\r\nHost: localhost:8080".toList ++ blankLine) ++ data) := by
        rw [head]
        simp only [List.append_assoc, List.cons_append]
      have length : "\r\nHost: localhost:8080".toList.length = 22 := rfl
      rw [shape]
      have passed := @find_pass Char _ '\r' "\n\r\n".toList _ absent
        (("\r\nHost: localhost:8080".toList ++ blankLine) ++ data)
      refine passed.trans ?_
      change Option.map _ (find blankLine _) = _
      rw [find_append host data, head, Option.map_some, Option.some.injEq]
      simp only [List.length_append, List.length_cons, length]
      omega
  · intro header data
    rfl

def oldRow : List Text :=
  ["3".toList, "0".toList, [], [], "/output/2019/IMG_0003.dng".toList]

/-- A server whose table has a file of an older library. -/
def oldLibrary : Impl Unit :=
  { bare with
    queue := some fun _ _ _ _ world => world
    client :=
      { bare.client with
        execute := fun statement world =>
          (match statement with
            | .importBySourcePath path =>
                { rows := if path = "" then [oldRow] else [] }
            | _ => {}, world) } }

def localhost : Text := "http://localhost:8080".toList

/-- The request for a quarter turn of an image. -/
def pressText : Text :=
  "POST /api/v1/imports/by-source/rotation-updated ".toList ++
    "HTTP/1.1\r\nHost: localhost:8080\r\n\r\n".toList ++
    "\x7bsource_path:/photos/2024/DSC_0001.NEF,orientation:6,".toList ++
    "client_id:darktable-lua\x7d".toList

def pressChunk : Chunk :=
  ⟨pressText, by decide +kernel, by decide +kernel⟩

theorem press_plainPath :
    (∀ c ∈ localhost, Plain c) ∧ ' ' ∉ plainPath ∧
      pressRequest (curlPost localhost) localhost [] plainPath 6 =
        some pressText ∧
      readRequest [pressChunk] = .ok pressText ∧
      authorized oldLibrary.config pressText rotationTarget = .ok true ∧
      pressCalls oldLibrary () =
        [.store .getImportBySourcePath,
          .queue 3 "/output/2019/IMG_0003.dng" 1 ""] :=
  ⟨forall_of_all (by decide +kernel), by decide +kernel,
    by decide +kernel, by decide +kernel, by decide +kernel,
    by decide +kernel⟩

/-- The press turns a file of the older library instead. -/
theorem press_misses_oldLibrary :
    (run (handle oldLibrary [pressChunk]) { world := () }).2.calls =
      [.store .getImportBySourcePath,
        .queue 3 "/output/2019/IMG_0003.dng" 1 ""] := by
  obtain ⟨letters, whole, made, read, passes', called⟩ := press_plainPath
  obtain ⟨req, sent, calls⟩ := (@press_misses Unit localhost [] plainPath
    (curlPost localhost) () oldLibrary
    ⟨letters, fun _ none => absurd none List.not_mem_nil⟩
    (List.cons_ne_nil _ _) sourcePath_plainPath whole
    (curlPost_posts localhost) 6).2 rfl
  rw [made, Option.some.injEq] at sent
  subst sent
  obtain ⟨passes, gate, result⟩ := calls [pressChunk] read
  rw [passes'] at gate
  cases gate
  rw [result, if_pos rfl, called]

end Plugin

end RawImport
