import Mathlib.Data.Bool.AllAny
import RawImport.Api.Json
import RawImport.Lib.JsonParser
import RawImport.Lib.Numeral

/-!
# The JSON of a record

`record_to_json` against the grammar: what is written is a JSON object with the
record's values unless a value holds a control character that `json_escape`
has no case for.
-/

namespace RawImport

namespace Api

open Cxx

/-- A control character that is neither a line break nor a tab. -/
def isBareControl (c : Char) : Bool :=
  c.toNat < 0x20 && c != '\n' && c != '\r' && c != '\t'

/-- The members that are strings, in their order. -/
def recordFields (r : ImportRecord) : List (String × String) :=
  [("sequence", r.sequenceName), ("source_path", r.sourcePath),
    ("source_hash", r.sourceHash), ("output_path", r.outputPath),
    ("output_hash", r.outputHash), ("camera_model", r.cameraModel),
    ("capture_date", r.captureDate), ("capture_time", r.captureTime),
    ("folder_schema", r.folderSchema), ("status", r.status.toText),
    ("created_at", r.createdAt), ("completed_at", r.completedAt)]

/-- The object that has the record's fields as its members. -/
def recordValue (r : ImportRecord) : Json.Value :=
  .object
    ((recordFields r).map (fun field =>
        (field.1.toList, .string field.2.toList)) ++
      [("orientation".toList, .number (toString r.orientation).toList)])

theorem jsonEscape_toText (status : ImportStatus) :
    jsonEscape status.toText.toList = status.toText.toList := by
  cases status <;> decide +kernel

theorem recordToJson_eq (r : ImportRecord) :
    recordToJson r =
      '\x7b' :: ((recordFields r).flatMap fun field =>
        stringMember field.1 field.2) ++
        ("\"orientation\":".toList ++ (toString r.orientation).toList ++
          "\x7d".toList) := by
  have status : stringMember "status" r.status.toText =
      "\"status\":\"".toList ++ r.status.toText.toList ++ "\",".toList := by
    unfold stringMember
    rw [jsonEscape_toText]
    rfl
  unfold recordToJson recordFields
  simp only [List.flatMap_cons, List.flatMap_nil, status, List.append_assoc,
    List.append_nil, List.cons_append]
  rfl

theorem quote_isEscape : Json.isEscape '"' = true := by decide

theorem backslash_isEscape : Json.isEscape '\\' = true := by decide

theorem n_isEscape : Json.isEscape 'n' = true := by decide

theorem r_isEscape : Json.isEscape 'r' = true := by decide

theorem t_isEscape : Json.isEscape 't' = true := by decide

/-- What is written for one character stands for that character. -/
theorem exists_piece {c : Char} (clean : isBareControl c = false) :
    ∃ piece : Json.Piece, piece.raw = jsonEscape [c] ∧
      ∀ rest, Json.Literal.value (piece :: rest) =
        c :: Json.Literal.value rest := by
  by_cases quote : c = '"'
  · subst quote
    exact ⟨.escape ⟨'"', quote_isEscape⟩, rfl, fun rest => rfl⟩
  by_cases backslash : c = '\\'
  · subst backslash
    exact ⟨.escape ⟨'\\', backslash_isEscape⟩, rfl, fun rest => rfl⟩
  by_cases newline : c = '\n'
  · subst newline
    exact ⟨.escape ⟨'n', n_isEscape⟩, rfl, fun rest => rfl⟩
  by_cases return' : c = '\r'
  · subst return'
    exact ⟨.escape ⟨'r', r_isEscape⟩, rfl, fun rest => rfl⟩
  by_cases tab : c = '\t'
  · subst tab
    exact ⟨.escape ⟨'t', t_isEscape⟩, rfl, fun rest => rfl⟩
  have unescaped : Json.isUnescaped c = true := by
    unfold isBareControl at clean
    unfold Json.isUnescaped
    simp_all
  refine ⟨.plain ⟨c, unescaped⟩, ?_, fun rest => rfl⟩
  simp [jsonEscape, Json.Piece.raw, quote, backslash, newline, return', tab]

theorem jsonEscape_cons (c : Char) (s : Text) :
    jsonEscape (c :: s) = jsonEscape [c] ++ jsonEscape s := by
  simp [jsonEscape]

/-- A string without bare control characters is written as a literal that
stands for it. -/
theorem exists_literal {s : Text}
    (clean : ∀ c ∈ s, isBareControl c = false) :
    ∃ literal : Json.Literal,
      literal.raw = jsonEscape s ∧ literal.value = s := by
  induction s with
  | nil => exact ⟨[], rfl, rfl⟩
  | cons c s ih =>
      obtain ⟨rest, raw, value⟩ := ih fun other member =>
        clean other (List.mem_cons_of_mem c member)
      obtain ⟨piece, written, meaning⟩ :=
        exists_piece (clean c List.mem_cons_self)
      refine ⟨piece :: rest, ?_, by rw [meaning, value]⟩
      rw [jsonEscape_cons, ← raw, ← written]
      rfl

theorem bareControl_ne {c other : Char} (bare : isBareControl c = true)
    (different : isBareControl other = false) : c ≠ other := by
  intro equal
  rw [equal, different] at bare
  cases bare

theorem mem_jsonEscape {s : Text} {c : Char} (member : c ∈ s)
    (bare : isBareControl c = true) : c ∈ jsonEscape s := by
  unfold jsonEscape
  apply List.mem_flatMap.mpr
  refine ⟨c, member, ?_⟩
  have plain : ¬(c = '"' ∨ c = '\\') :=
    not_or.mpr ⟨bareControl_ne bare rfl, bareControl_ne bare rfl⟩
  rw [if_neg plain, if_neg (bareControl_ne bare rfl),
    if_neg (bareControl_ne bare rfl), if_neg (bareControl_ne bare rfl)]
  exact List.mem_singleton_self c

theorem not_isLegal {c : Char} (bare : isBareControl c = true) :
    Json.isLegal c = false := by
  have blank : Json.isBlank c = false :=
    Json.isBlank_eq_false
      ⟨bareControl_ne bare rfl, bareControl_ne bare rfl,
        bareControl_ne bare rfl, bareControl_ne bare rfl⟩
  unfold isBareControl at bare
  simp only [Bool.and_eq_true, decide_eq_true_eq] at bare
  unfold Json.isLegal
  rw [blank, decide_eq_false (Nat.not_le_of_lt bare.1.1.1)]
  rfl

theorem exists_members {fields : List (String × String)}
    (names : ∀ field ∈ fields,
      jsonEscape field.1.toList = field.1.toList ∧
        ∀ c ∈ field.1.toList, isBareControl c = false)
    (clean : ∀ field ∈ fields,
      ∀ c ∈ field.2.toList, isBareControl c = false) :
    ∃ members : List Json.Member,
      members.flatMap (fun member => member.text ++ [',']) =
        fields.flatMap (fun field => stringMember field.1 field.2) ∧
      members.map Json.Member.meaning =
        fields.map fun field =>
          (field.1.toList, Json.Value.string field.2.toList) := by
  induction fields with
  | nil => exact ⟨[], rfl, rfl⟩
  | cons field fields ih =>
      obtain ⟨members, texts, meanings⟩ := ih
        (fun other member => names other (List.mem_cons_of_mem field member))
        (fun other member => clean other (List.mem_cons_of_mem field member))
      obtain ⟨plain, harmless⟩ := names field List.mem_cons_self
      obtain ⟨name, nameRaw, nameValue⟩ := exists_literal harmless
      obtain ⟨literal, raw, value⟩ :=
        exists_literal (clean field List.mem_cons_self)
      refine ⟨{ name := name, value := .string literal } :: members, ?_, ?_⟩
      · rw [List.flatMap_cons, List.flatMap_cons, texts]
        congr 1
        rw [plain] at nameRaw
        simp [Json.Member.text, Json.Layout.text, Json.Literal.text, nameRaw,
          raw, Json.noBlank, stringMember]
      · rw [List.map_cons, List.map_cons, meanings]
        simp [Json.Member.meaning, Json.Layout.value, nameValue, value]

/-- The text is not JSON once a field holds a bare control character. -/
theorem not_accepts_recordToJson {r : ImportRecord} {field : String × String}
    {c : Char} (listed : field ∈ recordFields r)
    (member : c ∈ field.2.toList) (bare : isBareControl c = true) :
    ¬Json.Accepts (recordToJson r) := by
  intro accepts
  have inside : c ∈ recordToJson r := by
    rw [recordToJson_eq]
    apply List.mem_append_left
    apply List.mem_cons_of_mem
    apply List.mem_flatMap.mpr
    refine ⟨field, listed, ?_⟩
    have copied := mem_jsonEscape member bare
    unfold stringMember
    simp [copied]
  have legal := Json.legal_of_accepts accepts inside
  rw [not_isLegal bare] at legal
  cases legal

theorem recordFields_names (r : ImportRecord) :
    ∀ field ∈ recordFields r,
      jsonEscape field.1.toList = field.1.toList ∧
        ∀ c ∈ field.1.toList, isBareControl c = false := by
  have each : ∀ name ∈ (recordFields r).map Prod.fst,
      jsonEscape name.toList = name.toList ∧
        name.toList.all (!isBareControl ·) = true := by
    change ∀ name ∈ ["sequence", "source_path", "source_hash",
      "output_path", "output_hash", "camera_model", "capture_date",
      "capture_time", "folder_schema", "status", "created_at",
      "completed_at"], _
    decide +kernel
  intro field listed
  obtain ⟨plain, clean⟩ :=
    each field.1 (List.mem_map.mpr ⟨field, listed, rfl⟩)
  refine ⟨plain, ?_⟩
  intro c member
  have harmless := List.all_eq_true.mp clean c member
  rwa [Bool.not_eq_true'] at harmless

/-- `record_to_json` writes a JSON object with the record's fields exactly when
no string field holds a control character other than a line break or a tab. -/
theorem recordToJson_denotes_iff (r : ImportRecord) :
    Json.Denotes (recordToJson r) (recordValue r) ↔
      ∀ field ∈ recordFields r, ∀ c ∈ field.2.toList,
        isBareControl c = false := by
  constructor
  · intro denotes field listed c member
    apply Bool.eq_false_iff.mpr
    intro bare
    exact not_accepts_recordToJson listed member bare denotes.accepts
  · intro clean
    obtain ⟨members, texts, meanings⟩ :=
      exists_members (recordFields_names r) clean
    obtain ⟨name, nameRaw, nameValue⟩ :=
      exists_literal (s := "orientation".toList)
        (List.all_iff_forall_prop.mp (by decide +kernel))
    have nameText : jsonEscape "orientation".toList =
        "orientation".toList := by decide +kernel
    rw [nameText] at nameRaw
    refine ⟨⟨Json.noBlank,
      .objectOf Json.noBlank (members ++
        [{ name := name
           value := .number
            ⟨(toString r.orientation).toList,
              Json.isNumeral_toString r.orientation⟩ }]),
      Json.noBlank⟩, ?_, ?_⟩
    · rw [recordToJson_eq, Json.Document.text,
        Json.Layout.text_objectOf, texts]
      simp [Json.Member.text, Json.Layout.text, Json.Literal.text, nameRaw,
        Json.noBlank]
    · rw [Json.Document.value, Json.Layout.value_objectOf, List.map_append,
        meanings]
      simp [Json.Member.meaning, Json.Layout.value, nameValue, recordValue]

/-- A source file may have a byte 1 in its name. -/
theorem recordToJson_bare_control :
    ¬Json.Accepts
      (recordToJson { sourcePath := "/watch/\x01.NEF" }) := by
  have listed : ("source_path", "/watch/\x01.NEF") ∈
      recordFields { sourcePath := "/watch/\x01.NEF" } := by decide +kernel
  have member : '\x01' ∈ "/watch/\x01.NEF".toList := by decide +kernel
  exact not_accepts_recordToJson listed member rfl

end Api

end RawImport
