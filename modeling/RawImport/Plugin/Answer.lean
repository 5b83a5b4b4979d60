import RawImport.Api.AnswerJson
import RawImport.Plugin.BySource
import RawImport.Plugin.Targets

/-!
# What the plugin reads in an answer

`resolve_dng_via_api` looks for the member `output_path` with a pattern, not
with a JSON parser.  A quote that stands in a string is escaped, so the pattern
begins at the member itself and nowhere else, whatever the other members hold;
what it captures is the text of the literal up to its first quote.
-/

namespace RawImport

namespace Plugin

open Api Cxx Effect Lua

def keyLetters : Text := "output_path".toList

/-- What `([^"]+)` captures of an escaped path. -/
def captured (path : Path) : Text :=
  (jsonEscape path.toList).takeWhile (· ≠ '"')

/-! ## Where the pattern does not begin -/

theorem matchOutputPath_eq_none {c : Char} {text : Text}
    (other : c = '"' → ¬keyLetters ++ ['"'] <+: text) :
    matchOutputPath (c :: text) = none := by
  unfold matchOutputPath
  apply if_neg
  intro starts
  have key : "\"output_path\"".toList = '"' :: (keyLetters ++ ['"']) := rfl
  rw [startsWith, beq_iff_eq, ← List.prefix_iff_eq_take.trans eq_comm, key,
    List.cons_prefix_cons] at starts
  exact other starts.1.symm starts.2

theorem outputPath_skip {c : Char} {text : Text}
    (other : c = '"' → ¬keyLetters ++ ['"'] <+: text) :
    outputPath (c :: text) = outputPath text := by
  rw [outputPath, matchOutputPath_eq_none other, Option.none_or]

theorem outputPath_skip_letter {c : Char} {text : Text} (letter : c ≠ '"') :
    outputPath (c :: text) = outputPath text :=
  outputPath_skip fun quote => absurd quote letter

theorem outputPath_skip_letters {front : Text} (letters : '"' ∉ front)
    (text : Text) : outputPath (front ++ text) = outputPath text := by
  induction front with
  | nil => rfl
  | cons c front ih =>
      rw [List.mem_cons, not_or] at letters
      rw [List.cons_append, outputPath_skip_letter (Ne.symm letters.1),
        ih letters.2]

theorem outputPath_of_not_mem {text : Text} (letters : '"' ∉ text) :
    outputPath text = none := by
  have none := outputPath_skip_letters letters []
  rwa [List.append_nil] at none

/-! ## Escaped strings -/

/-- The characters that `json_escape` writes as a pair. -/
def escapedLetters : Text := "\"\\\n\r\t".toList

theorem jsonEscape_plain {c : Char} (plain : c ∉ escapedLetters) :
    jsonEscape [c] = [c] := by
  have letters : escapedLetters = ['"', '\\', '\n', '\r', '\t'] := rfl
  simp only [letters, List.mem_cons, List.not_mem_nil, or_false,
    not_or] at plain
  obtain ⟨quote, backslash, newline, return', tab⟩ := plain
  simp [jsonEscape, quote, backslash, newline, return', tab]

theorem jsonEscape_pair {c : Char} (escaped : c ∈ escapedLetters) :
    ∃ d, jsonEscape [c] = ['\\', d] ∧ (d = '"' → c = '"') := by
  have each : ∀ c ∈ escapedLetters,
      jsonEscape [c] = ['\\', (jsonEscape [c]).getLastD ' '] ∧
        ((jsonEscape [c]).getLastD ' ' = '"' → c = '"') :=
    forall_of_all (by decide)
  exact ⟨_, each c escaped⟩

/-- The text of one character: itself, or a pair behind a backslash. -/
theorem jsonEscape_single (c : Char) :
    (jsonEscape [c] = [c] ∧ c ≠ '"') ∨ ∃ d, jsonEscape [c] = ['\\', d] := by
  by_cases escaped : c ∈ escapedLetters
  · obtain ⟨d, pair, -⟩ := jsonEscape_pair escaped
    exact .inr ⟨d, pair⟩
  · refine .inl ⟨jsonEscape_plain escaped, ?_⟩
    rintro rfl
    exact escaped (by decide)

/-- A literal that begins with plain letters and a quote ends there. -/
theorem eq_of_prefix_literal {letters : Text}
    (plain : ∀ c ∈ letters, c ≠ '"' ∧ c ≠ '\\') {s rest : Text}
    (begins : letters ++ ['"'] <+: jsonEscape s ++ '"' :: rest) :
    jsonEscape s = letters := by
  induction letters generalizing s with
  | nil =>
      cases s with
      | nil => rfl
      | cons c s =>
          rw [jsonEscape_cons] at begins
          rcases jsonEscape_single c with ⟨same, other⟩ | ⟨d, pair⟩
          · rw [same] at begins
            exact absurd (List.cons_prefix_cons.mp begins).1.symm other
          · rw [pair] at begins
            exact absurd (List.cons_prefix_cons.mp begins).1 (by decide)
  | cons letter letters ih =>
      have first := plain letter List.mem_cons_self
      cases s with
      | nil => exact absurd (List.cons_prefix_cons.mp begins).1 first.1
      | cons c s =>
          rw [jsonEscape_cons] at begins ⊢
          rcases jsonEscape_single c with ⟨same, other⟩ | ⟨d, pair⟩
          · rw [same] at begins ⊢
            obtain ⟨rfl, later⟩ := List.cons_prefix_cons.mp begins
            rw [ih (fun c member => plain c (List.mem_cons_of_mem _ member))
              later]
            rfl
          · rw [pair] at begins
            exact absurd (List.cons_prefix_cons.mp begins).1 first.2

theorem keyLetters_plain : ∀ c ∈ keyLetters, c ≠ '"' ∧ c ≠ '\\' :=
  forall_of_all (by decide)

theorem matchOutputPath_literal (s rest : Text) :
    matchOutputPath ('"' :: (jsonEscape s ++ '"' :: ',' :: rest)) =
      none := by
  by_cases begins : keyLetters ++ ['"'] <+: jsonEscape s ++ '"' :: ',' :: rest
  · rw [eq_of_prefix_literal keyLetters_plain begins]
    rfl
  · exact matchOutputPath_eq_none fun _ => begins

theorem outputPath_quote {c : Char} {text : Text} (other : c ≠ 'o') :
    outputPath ('"' :: c :: text) = outputPath (c :: text) := by
  apply outputPath_skip
  intro _ begins
  exact other (List.cons_prefix_cons.mp begins).1.symm

theorem outputPath_literal (s rest : Text) :
    outputPath (jsonEscape s ++ '"' :: ',' :: rest) = outputPath rest := by
  induction s with
  | nil =>
      exact (outputPath_quote (by decide)).trans
        (outputPath_skip_letter (by decide))
  | cons c s ih =>
      rw [jsonEscape_cons, List.append_assoc]
      rcases jsonEscape_single c with ⟨same, other⟩ | ⟨d, pair⟩
      · rw [same]
        exact (outputPath_skip_letter other).trans ih
      · rw [pair, List.cons_append, List.cons_append, List.nil_append,
          outputPath_skip_letter (by decide)]
        by_cases quote : d = '"'
        · subst quote
          rw [outputPath, matchOutputPath_literal, Option.none_or, ih]
        · rw [outputPath_skip_letter quote, ih]

/-! ## Members -/

/-- A name that `json_escape` leaves as it is. -/
def PlainName (name : String) : Prop :=
  jsonEscape name.toList = name.toList ∧ '"' ∉ name.toList

theorem stringMember_append (name value : String) (rest : Text) :
    stringMember name value ++ rest =
      '"' :: (name.toList ++ '"' :: ':' :: '"' ::
        (jsonEscape value.toList ++ '"' :: ',' :: rest)) := by
  have middle : "\":\"".toList = ['"', ':', '"'] := rfl
  have behind : "\",".toList = ['"', ','] := rfl
  rw [stringMember, middle, behind]
  simp only [List.append_assoc, List.cons_append, List.nil_append]

theorem outputPath_value {name : Text} (plain : '"' ∉ name)
    (value : String) (rest : Text) :
    outputPath (name ++ '"' :: ':' :: '"' ::
      (jsonEscape value.toList ++ '"' :: ',' :: rest)) = outputPath rest := by
  rw [outputPath_skip_letters plain, outputPath_quote (by decide),
    outputPath_skip_letter (by decide), outputPath,
    matchOutputPath_literal, Option.none_or, outputPath_literal]

theorem outputPath_other {name : String} (plain : PlainName name)
    (other : name.toList ≠ keyLetters) (value : String) (rest : Text) :
    outputPath (stringMember name value ++ rest) = outputPath rest := by
  rw [stringMember_append, outputPath_skip, outputPath_value plain.2]
  intro _ begins
  apply other
  rw [← plain.1] at begins ⊢
  exact eq_of_prefix_literal keyLetters_plain begins

theorem captured_eq_nil_iff {path : Path} :
    captured path = [] ↔ path = "" := by
  constructor
  · intro nothing
    apply String.toList_inj.mp
    unfold captured at nothing
    cases letters : path.toList with
    | nil => rfl
    | cons c s =>
        rw [letters, jsonEscape_cons] at nothing
        rcases jsonEscape_single c with ⟨same, other⟩ | ⟨d, pair⟩
        · rw [same] at nothing
          simp [other] at nothing
        · rw [pair] at nothing
          simp at nothing
  · rintro rfl
    rfl

theorem takeWhile_quote (front rest : Text) :
    (front ++ '"' :: rest).takeWhile (· ≠ '"') =
      front.takeWhile (· ≠ '"') := by
  rw [List.takeWhile_append]
  split
  · next all =>
      rw [(List.takeWhile_prefix _).eq_of_length all]
      exact List.append_nil front
  · rfl

theorem matchOutputPath_member (path : Path) (rest : Text) :
    matchOutputPath ('"' :: (keyLetters ++ '"' :: ':' :: '"' ::
        (jsonEscape path.toList ++ '"' :: ',' :: rest))) =
      if path = "" then none else some (captured path) := by
  have read : matchOutputPath ('"' :: (keyLetters ++ '"' :: ':' :: '"' ::
        (jsonEscape path.toList ++ '"' :: ',' :: rest))) =
      let text := jsonEscape path.toList ++ '"' :: ',' :: rest
      let found := text.takeWhile (· ≠ '"')
      if found ≠ [] ∧ text.drop found.length ≠ [] then some found
      else none := rfl
  have behind : (jsonEscape path.toList ++ '"' :: ',' :: rest).drop
      (captured path).length ≠ [] := by
    have inside : (captured path).length ≤
        (jsonEscape path.toList).length :=
      (List.takeWhile_prefix _).length_le
    rw [Ne, List.drop_eq_nil_iff, List.length_append, List.length_cons]
    omega
  have found : (jsonEscape path.toList ++ '"' :: ',' :: rest).takeWhile
      (· ≠ '"') = captured path := takeWhile_quote _ _
  rw [read]
  simp only [found]
  by_cases empty : path = ""
  · rw [if_pos empty, if_neg]
    exact fun both => both.1 (captured_eq_nil_iff.mpr empty)
  · rw [if_neg empty, if_pos]
    exact ⟨fun nothing => empty (captured_eq_nil_iff.mp nothing), behind⟩

/-- At the member itself the pattern captures the value, unless that is
empty. -/
theorem outputPath_member (path : Path) (rest : Text) :
    outputPath (stringMember "output_path" path ++ rest) =
      if path = "" then outputPath rest else some (captured path) := by
  have plain : '"' ∉ keyLetters := by decide
  rw [stringMember_append, outputPath]
  change (matchOutputPath ('"' :: (keyLetters ++ _))).or
    (outputPath (keyLetters ++ _)) = _
  rw [matchOutputPath_member, outputPath_value plain]
  split
  · exact Option.none_or
  · exact Option.some_or

theorem outputPath_others {fields : List (String × String)}
    (plain : ∀ field ∈ fields, PlainName field.1 ∧
      field.1.toList ≠ keyLetters) (rest : Text) :
    outputPath ((fields.flatMap fun field => stringMember field.1 field.2) ++
      rest) = outputPath rest := by
  induction fields with
  | nil => rfl
  | cons field fields ih =>
      have first := plain field List.mem_cons_self
      rw [List.flatMap_cons, List.append_assoc,
        outputPath_other first.1 first.2,
        ih fun other member => plain other (List.mem_cons_of_mem _ member)]

/-- The names of the members in front of `output_path`. -/
def namesBefore : List String :=
  ["sequence", "source_path", "source_hash"]

def namesBehind : List String :=
  ["output_hash", "camera_model", "capture_date", "capture_time",
    "folder_schema", "status", "created_at", "completed_at"]

theorem names_plain : ∀ name ∈ namesBefore ++ namesBehind,
    (jsonEscape name.toList = name.toList ∧ '"' ∉ name.toList) ∧
      name.toList ≠ keyLetters := by
  decide +kernel

theorem fields_plain {names : List String} (values : List String)
    (known : ∀ name ∈ names, name ∈ namesBefore ++ namesBehind) :
    ∀ field ∈ names.zip values, PlainName field.1 ∧
      field.1.toList ≠ keyLetters :=
  fun field member => names_plain field.1 (known _ (List.of_mem_zip member).1)

theorem outputPath_orientation (orientation : Int) :
    outputPath ("\"orientation\":".toList ++
      (toString orientation).toList ++ "\x7d".toList) = none := by
  have letters : '"' ∉ (toString orientation).toList ++ "\x7d".toList := by
    intro member
    rcases List.mem_append.mp member with inNumber | inBrace
    · rcases Numeral.mem_toString inNumber with digit | sign
      · revert digit
        decide
      · revert sign
        decide
    · revert inBrace
      decide
  have key : "\"orientation\":".toList =
      '"' :: ("orientation".toList ++ '"' :: [':']) := rfl
  rw [List.append_assoc, key]
  simp only [List.cons_append, List.append_assoc, List.nil_append]
  rw [outputPath_skip, outputPath_skip_letters (by decide),
    outputPath_quote (by decide), outputPath_skip_letter (by decide),
    outputPath_of_not_mem letters]
  intro _ begins
  have second := (List.cons_prefix_cons.mp begins).2
  exact absurd (List.cons_prefix_cons.mp second).1 (by decide)

/-- Of the object of a record the pattern finds the output path. -/
theorem outputPath_record (r : ImportRecord) :
    outputPath (recordToJson r) =
      if r.outputPath = "" then none else some (captured r.outputPath) := by
  have split : recordFields r =
      namesBefore.zip [r.sequenceName, r.sourcePath, r.sourceHash] ++
        ("output_path", r.outputPath) ::
          namesBehind.zip [r.outputHash, r.cameraModel, r.captureDate,
            r.captureTime, r.folderSchema, r.status.toText, r.createdAt,
            r.completedAt] := rfl
  rw [recordToJson_eq, split, List.cons_append,
    outputPath_skip_letter (by decide), List.flatMap_append,
    List.flatMap_cons, List.append_assoc, List.append_assoc,
    outputPath_others, outputPath_member, outputPath_others,
    outputPath_orientation]
  · exact fields_plain _ fun name member => List.mem_append_right _ member
  · exact fields_plain _ fun name member => List.mem_append_left _ member

theorem quote_mem_of_jsonEscape {s : Text} (member : '"' ∈ jsonEscape s) :
    '"' ∈ s := by
  obtain ⟨c, inside, written⟩ := List.mem_flatMap.mp member
  have written : '"' ∈ jsonEscape [c] := by
    rw [jsonEscape, List.flatMap_singleton]
    exact written
  by_cases escaped : c ∈ escapedLetters
  · obtain ⟨d, pair, quote⟩ := jsonEscape_pair escaped
    rw [pair] at written
    rcases List.mem_cons.mp written with impossible | last
    · exact absurd impossible (by decide)
    · rwa [quote (List.mem_singleton.mp last).symm] at inside
  · rw [jsonEscape_plain escaped] at written
    rwa [← List.mem_singleton.mp written] at inside

theorem length_jsonEscape (s : Text) :
    (jsonEscape s).length =
      s.length + s.countP fun c => decide (c ∈ escapedLetters) := by
  induction s with
  | nil => rfl
  | cons c s ih =>
      rw [jsonEscape_cons, List.length_append, ih, List.countP_cons,
        List.length_cons]
      by_cases escaped : c ∈ escapedLetters
      · obtain ⟨d, pair, -⟩ := jsonEscape_pair escaped
        rw [pair, if_pos (decide_eq_true escaped), List.length_cons,
          List.length_singleton]
        omega
      · rw [jsonEscape_plain escaped, List.length_singleton,
          if_neg (by simpa using escaped)]
        omega

theorem jsonEscape_eq_self {s : Text} (plain : ∀ c ∈ s, c ∉ escapedLetters) :
    jsonEscape s = s := by
  induction s with
  | nil => rfl
  | cons c s ih =>
      rw [jsonEscape_cons, jsonEscape_plain (plain c List.mem_cons_self),
        ih fun d member => plain d (List.mem_cons_of_mem _ member)]
      rfl

/-- What is captured is the path exactly when nothing in it is escaped. -/
theorem captured_eq_iff (path : Path) :
    captured path = path.toList ↔
      ∀ c ∈ path.toList, c ∉ escapedLetters := by
  unfold captured
  constructor
  · intro same c member escaped
    have noQuote : '"' ∉ path.toList := by
      intro quote
      rw [← same] at quote
      simpa using List.mem_takeWhile_imp quote
    have whole : jsonEscape path.toList = path.toList := by
      have all : (jsonEscape path.toList).takeWhile (· ≠ '"') =
          jsonEscape path.toList := by
        rw [List.takeWhile_eq_self_iff]
        intro d inside
        have other : d ≠ '"' := by
          rintro rfl
          exact noQuote (quote_mem_of_jsonEscape inside)
        simpa using other
      rw [← all, same]
    have length := length_jsonEscape path.toList
    rw [whole] at length
    have counted : 0 < path.toList.countP fun c =>
        decide (c ∈ escapedLetters) :=
      List.countP_pos_iff.mpr ⟨c, member, decide_eq_true escaped⟩
    omega
  · intro plain
    rw [jsonEscape_eq_self plain, List.takeWhile_eq_self_iff]
    intro c member
    have other : c ≠ '"' := by
      rintro rfl
      exact plain _ member (by decide)
    simpa using other

/-! ## The answer of the server -/

variable {σ : Type}

/-- The body of the response that a request gets. -/
def served (impl : Impl σ) (world : σ) (chunks : List Chunk) : Option Text :=
  (run (handle impl chunks) { world := world }).2.sent.head?.map Answer.body

variable {world : σ} {chunks : List Chunk} {base path : Text}
  {fetch : Text → Text}

theorem answeredDng_of_answer {plugin : World} {out : Text}
    (configured : plugin.base ≠ [])
    (asked : plugin.answer
      (resolveDngViaApi plugin.base plugin.token path) = some out)
    (nonempty : out ≠ []) : answeredDng plugin path = outputPath out := by
  rw [answeredDng, if_neg configured, asked]
  exact if_neg nonempty

def unauthorizedBody : Text :=
  "\x7b\"error\":\"unauthorized\"\x7d".toList

/-- The body for a query that passes the token check. -/
def lookupBody (found : Option ImportRecord) : Text :=
  match found with
  | none => "\x7b\"error\":\"not-found\"\x7d".toList
  | some record => recordToJson record

theorem served_refused (impl : Impl σ) {req method query : Text}
    (read : readRequest chunks = .ok req)
    (line : requestLine req = .ok (some (method, path, query)))
    (gate : authorized impl.config req path = .ok false) :
    served impl world chunks =
      some unauthorizedBody := by
  rw [served, handle_eq impl read, respond_refused impl line gate]
  rfl

theorem served_bySource (impl : Impl σ) {req : Text} {q : Params}
    (read : readRequest chunks = .ok req)
    (routed : Routed impl req "GET".toList bySourcePath q) :
    served impl world chunks = some (lookupBody
      (Store.getImportBySourcePath impl.client
        (String.ofList ((q.get "path".toList).getD [])) world).1) := by
  have route : route impl req "GET".toList bySourcePath q =
      bySource impl q := by
    rfl
  rw [served, handle_eq impl read, respond_routed impl routed, route]
  unfold bySource
  change ((run (answerRecord (Store.getImportBySourcePath impl.client
    (String.ofList ((q.get "path".toList).getD [])) world).1)
      _).2.sent.head?).map Answer.body = _
  generalize (Store.getImportBySourcePath impl.client
    (String.ofList ((q.get "path".toList).getD [])) world).1 = found
  cases found with
  | none => rfl
  | some record => rfl

theorem outputPath_errors : outputPath unauthorizedBody = none ∧
    outputPath (lookupBody none) = none :=
  ⟨by decide +kernel, by decide +kernel⟩

theorem lookupBody_ne_nil (found : Option ImportRecord) :
    lookupBody found ≠ [] := by
  cases found with
  | none => exact List.cons_ne_nil _ _
  | some record =>
      change recordToJson record ≠ []
      rw [recordToJson_eq]
      exact List.cons_ne_nil _ _

theorem outputPath_lookupBody {found : Option ImportRecord} {dng : Text} :
    outputPath (lookupBody found) = some dng ↔
      ∃ record, found = some record ∧ record.outputPath ≠ "" ∧
        dng = captured record.outputPath := by
  cases found with
  | none =>
      rw [outputPath_errors.2]
      refine iff_of_false (by rintro ⟨⟩) ?_
      rintro ⟨record, impossible, -⟩
      cases impossible
  | some record =>
      change outputPath (recordToJson record) = _ ↔ _
      rw [outputPath_record]
      by_cases empty : record.outputPath = ""
      · rw [if_pos empty]
        refine iff_of_false (by rintro ⟨⟩) ?_
        rintro ⟨other, same, nonempty, -⟩
        cases same
        exact nonempty empty
      · rw [if_neg empty, Option.some.injEq]
        constructor
        · rintro rfl
          exact ⟨record, rfl, empty, rfl⟩
        · rintro ⟨other, same, -, rfl⟩
          cases same
          rfl

/-- The DNG that the plugin gets from the server: for any server, token,
state of the tables and address, the output path of the record that the store
finds for the path in the query, as far as the pattern captures it; and that
is the output path itself exactly when nothing in it is escaped. -/
theorem answeredDng_served (impl : Impl σ) {plugin : World}
    (sends : SendsTarget plugin.base fetch) (named : SourcePath path)
    (read : readRequest chunks = .ok (fetch (resolveUrl plugin.base path)))
    (configured : plugin.base ≠ [])
    (asked : plugin.answer
      (resolveDngViaApi plugin.base plugin.token path) =
        served impl world chunks) (dng : Text) :
    answeredDng plugin path = some dng ↔
      authorized impl.config (fetch (resolveUrl plugin.base path))
        bySourcePath = .ok true ∧
      ∃ record,
        (Store.getImportBySourcePath impl.client
          (String.ofList (escapePath path)) world).1 = some record ∧
        record.outputPath ≠ "" ∧ dng = captured record.outputPath ∧
        (dng = record.outputPath.toList ↔
          ∀ c ∈ record.outputPath.toList, c ∉ escapedLetters) := by
  obtain ⟨line, params⟩ := parsed_request sends named read
  obtain ⟨passes, gate⟩ := authorized_ok impl.config
    (fetch (resolveUrl plugin.base path)) bySourcePath
  cases passes with
  | false =>
      rw [served_refused impl read line gate] at asked
      rw [answeredDng_of_answer configured asked (by decide),
        outputPath_errors.1, gate]
      exact iff_of_false (by rintro ⟨⟩) (by rintro ⟨⟨⟩, -⟩)
  | true =>
      have value : (Params.get [("path".toList, escapePath path)]
          "path".toList).getD [] = escapePath path := by
        simp [Params.get]
      rw [served_bySource impl read ⟨⟨_, line, params⟩, gate⟩,
        value] at asked
      rw [answeredDng_of_answer configured asked (lookupBody_ne_nil _),
        outputPath_lookupBody, and_iff_right gate]
      constructor
      · rintro ⟨record, found, nonempty, rfl⟩
        exact ⟨record, found, nonempty, rfl, captured_eq_iff _⟩
      · rintro ⟨record, found, nonempty, same, -⟩
        exact ⟨record, found, nonempty, same⟩

def plainRow : List Text :=
  ["7".toList, "1".toList, plainPath, [], "/output/2024/DSC_0001.dng".toList]

def oneImport : Impl Unit :=
  { bare with
    client :=
      { bare.client with
        execute := fun statement world =>
          (match statement with
            | .importBySourcePath path =>
                { rows := if path.toList = plainPath then [plainRow] else [] }
            | _ => {}, world) } }

theorem plainChunk_fits : resolveRequest plainPath ≠ [] ∧
    (resolveRequest plainPath).length ≤ 4095 := by
  decide +kernel

def plainChunk : Chunk :=
  ⟨resolveRequest plainPath, plainChunk_fits⟩

def askingPlugin : World where
  base := "http://localhost:8080".toList
  token := []
  answer _ := served oneImport () [plainChunk]
  writable _ := true
  dnglab := true
  dngSdk := false
  exiftool := false

theorem sourcePath_plainPath : SourcePath plainPath :=
  ⟨by decide +kernel, List.all_iff_forall_prop.mp (by decide +kernel)⟩

theorem query_plainPath :
    readRequest [plainChunk] =
        .ok (curl askingPlugin.base
          (resolveUrl askingPlugin.base plainPath)) ∧
      authorized oneImport.config
        (curl askingPlugin.base (resolveUrl askingPlugin.base plainPath))
        bySourcePath = .ok true ∧
      (Store.getImportBySourcePath oneImport.client
        (String.ofList (escapePath plainPath)) ()).1 =
          some (vecToRecord plainRow) ∧
      (vecToRecord plainRow).outputPath ≠ "" ∧
      "/output/2024/DSC_0001.dng".toList =
        captured (vecToRecord plainRow).outputPath :=
  ⟨by decide +kernel, by decide +kernel, by decide +kernel,
    by decide +kernel, by decide +kernel⟩

theorem answer_askingPlugin (command : Text) :
    askingPlugin.answer command = served oneImport () [plainChunk] := by
  delta askingPlugin
  dsimp only

theorem answeredDng_oneImport :
    answeredDng askingPlugin plainPath =
      some "/output/2024/DSC_0001.dng".toList := by
  obtain ⟨read, gate, found, nonempty, text⟩ := query_plainPath
  refine (answeredDng_served oneImport (curl_sends askingPlugin.base)
    sourcePath_plainPath read (List.cons_ne_nil _ _)
    (answer_askingPlugin _) _).mpr
    ⟨gate, vecToRecord plainRow, found, nonempty, text, ?_⟩
  rw [text]
  exact captured_eq_iff _

end Plugin

end RawImport
