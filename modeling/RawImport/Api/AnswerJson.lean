import RawImport.Api.Handle
import RawImport.Api.RecordJson
import RawImport.Lib.JsonWriting

/-!
# The JSON of the answers

Every body that the routes put together is a JSON text unless a control
character stands in it as it is: `json_escape` has no case for most of them.
-/

namespace RawImport

namespace Api

open Cxx

/-- No bare control character stands in the text. -/
def Clean (text : Text) : Prop :=
  ∀ c ∈ text, isBareControl c = false

/-- The text of a value, unless a bare control character stands in it. -/
def Written (text : Text) : Prop :=
  Clean text → Json.Stands text

/-- JSON and no bare control character are the same for the text. -/
def JsonExactly (body : Text) : Prop :=
  Json.Accepts body ↔ Clean body

theorem Written.exactly {body : Text} (written : Written body) :
    JsonExactly body := by
  constructor
  · intro accepts c member
    apply Bool.eq_false_iff.mpr
    intro bare
    have legal := Json.legal_of_accepts accepts member
    rw [not_isLegal bare] at legal
    cases legal
  · exact fun clean => (written clean).accepts

theorem Clean.sub {text part : Text} (clean : Clean text)
    (inside : ∀ c ∈ part, c ∈ text) : Clean part :=
  fun c member => clean c (inside c member)

theorem written_number (number : Int) : Written (toString number).toList :=
  fun _ => Json.stands_number number

theorem written_string (s : Text) :
    Written ('"' :: jsonEscape s ++ ['"']) := by
  intro clean
  have inner : Clean s := by
    intro c member
    apply Bool.eq_false_iff.mpr
    intro bare
    have copied := clean c (List.mem_cons_of_mem _
      (List.mem_append_left _ (mem_jsonEscape member bare)))
    rw [bare] at copied
    cases copied
  obtain ⟨literal, raw, -⟩ := exists_literal inner
  rw [← raw]
  exact Json.stands_string literal

theorem written_plain {s : Text} (plain : jsonEscape s = s) :
    Written ('"' :: s ++ ['"']) := by
  have written := written_string s
  rwa [plain] at written

theorem written_array {elements : List Text}
    (each : ∀ element ∈ elements, Written element) :
    Written (Json.arrayText elements) := by
  intro clean
  apply Json.stands_array
  intro element listed
  apply each element listed
  apply clean.sub
  intro c member
  exact List.mem_cons_of_mem _
    (List.mem_append_left _ (Json.mem_intercalate listed member))

theorem written_object {members : List (Text × Text)}
    (names : ∀ member ∈ members, member.1.all Json.isUnescaped = true)
    (each : ∀ member ∈ members, Written member.2) :
    Written (Json.objectText members) := by
  intro clean
  apply Json.stands_object names
  intro member listed
  apply each member listed
  apply clean.sub
  intro c inside
  apply List.mem_cons_of_mem
  apply List.mem_append_left
  apply Json.mem_intercalate (List.mem_map_of_mem listed)
  exact List.mem_append_right _
    (List.mem_cons_of_mem _ (List.mem_cons_of_mem _ inside))

def fieldText (field : String × String) : Text × Text :=
  (field.1.toList, '"' :: jsonEscape field.2.toList ++ ['"'])

theorem stringMember_eq (field : String × String) :
    stringMember field.1 field.2 =
      Json.memberText (fieldText field) ++ [','] := by
  have middle : "\":\"".toList = ['"', ':', '"'] := rfl
  have behind : "\",".toList = ['"', ','] := rfl
  unfold stringMember Json.memberText fieldText
  rw [middle, behind]
  simp only [List.append_assoc, List.cons_append, List.nil_append]

theorem recordToJson_object (r : ImportRecord) :
    recordToJson r = Json.objectText
      ((recordFields r).map fieldText ++
        [("orientation".toList, (toString r.orientation).toList)]) := by
  have name : "\"orientation\":".toList =
      '"' :: "orientation".toList ++ ['"', ':'] := rfl
  have close : "\x7d".toList = ['\x7d'] := rfl
  rw [recordToJson_eq, Json.objectText, List.map_append, List.map_singleton,
    Json.intercalate_concat, List.map_map, List.flatMap_map, name, close]
  simp only [stringMember_eq, Json.memberText, Function.comp_def,
    List.append_assoc, List.cons_append, List.nil_append]

theorem written_record (r : ImportRecord) : Written (recordToJson r) := by
  have names : ∀ name ∈ (recordFields r).map Prod.fst,
      name.toList.all Json.isUnescaped = true := by
    change ∀ name ∈ ["sequence", "source_path", "source_hash",
      "output_path", "output_hash", "camera_model", "capture_date",
      "capture_time", "folder_schema", "status", "created_at",
      "completed_at"], _
    decide +kernel
  rw [recordToJson_object]
  apply written_object
  · intro member listed
    rcases List.mem_append.mp listed with strings | last
    · obtain ⟨field, one, rfl⟩ := List.mem_map.mp strings
      exact names field.1 (List.mem_map_of_mem one)
    · rw [List.mem_singleton.mp last]
      rfl
  · intro member listed
    rcases List.mem_append.mp listed with strings | last
    · obtain ⟨field, -, rfl⟩ := List.mem_map.mp strings
      exact written_string field.2.toList
    · rw [List.mem_singleton.mp last]
      exact written_number r.orientation

theorem written_texts {members : List (String × String)}
    (names : ∀ member ∈ members,
      member.1.toList.all Json.isUnescaped = true)
    (plain : ∀ member ∈ members,
      jsonEscape member.2.toList = member.2.toList) :
    Written (Json.objectText (members.map fun member =>
      (member.1.toList, '"' :: member.2.toList ++ ['"']))) := by
  apply written_object
  · intro member listed
    obtain ⟨text, one, rfl⟩ := List.mem_map.mp listed
    exact names text one
  · intro member listed
    obtain ⟨text, one, rfl⟩ := List.mem_map.mp listed
    exact written_plain (plain text one)

theorem written_error {error : String}
    (plain : jsonEscape error.toList = error.toList) :
    Written ("\x7b\"error\":\"".toList ++ error.toList ++
      "\"\x7d".toList) := by
  have object : "\x7b\"error\":\"".toList ++ error.toList ++
      "\"\x7d".toList =
        Json.objectText ([("error", error)].map fun member =>
          (member.1.toList, '"' :: member.2.toList ++ ['"'])) := by
    have front : "\x7b\"error\":\"".toList =
        '\x7b' :: '"' :: "error".toList ++ ['"', ':', '"'] := rfl
    have close : "\"\x7d".toList = ['"', '\x7d'] := rfl
    rw [front, close, Json.objectText, List.map_singleton,
      List.map_singleton, List.intercalate_singleton, Json.memberText]
    simp only [List.append_assoc, List.cons_append, List.nil_append]
  rw [object]
  have name : "error".toList.all Json.isUnescaped = true := by
    decide +kernel
  apply written_texts
  · intro member listed
    rw [List.mem_singleton.mp listed]
    exact name
  · intro member listed
    rw [List.mem_singleton.mp listed]
    exact plain

theorem written_alerts : Written "\x7b\"alerts\":[]\x7d".toList := by
  have object : "\x7b\"alerts\":[]\x7d".toList =
      Json.objectText [("alerts".toList, Json.arrayText [])] := by
    decide +kernel
  rw [object]
  apply written_object
  · simp only [List.forall_mem_cons]
    exact ⟨rfl, List.forall_mem_nil _⟩
  · simp only [List.forall_mem_cons]
    exact ⟨written_array (List.forall_mem_nil _), List.forall_mem_nil _⟩

theorem written_stats (s : Stats) :
    Written ("\x7b\"total\":".toList ++ (toString s.total).toList ++
      ",\"completed\":".toList ++ (toString s.completed).toList ++
      ",\"failed\":".toList ++ (toString s.failed).toList ++
      ",\"queue_depth\":".toList ++ (toString s.queueDepth).toList ++
      "\x7d".toList) := by
  have object : "\x7b\"total\":".toList ++ (toString s.total).toList ++
      ",\"completed\":".toList ++ (toString s.completed).toList ++
      ",\"failed\":".toList ++ (toString s.failed).toList ++
      ",\"queue_depth\":".toList ++ (toString s.queueDepth).toList ++
      "\x7d".toList =
        Json.objectText [("total".toList, (toString s.total).toList),
          ("completed".toList, (toString s.completed).toList),
          ("failed".toList, (toString s.failed).toList),
          ("queue_depth".toList, (toString s.queueDepth).toList)] := by
    have total : "\x7b\"total\":".toList =
        '\x7b' :: '"' :: "total".toList ++ ['"', ':'] := rfl
    have completed : ",\"completed\":".toList =
        ',' :: '"' :: "completed".toList ++ ['"', ':'] := rfl
    have failed : ",\"failed\":".toList =
        ',' :: '"' :: "failed".toList ++ ['"', ':'] := rfl
    have depth : ",\"queue_depth\":".toList =
        ',' :: '"' :: "queue_depth".toList ++ ['"', ':'] := rfl
    have close : "\x7d".toList = ['\x7d'] := rfl
    rw [total, completed, failed, depth, close, Json.objectText]
    simp only [List.map_cons, List.map_nil, Json.intercalate_cons,
      List.flatMap_cons, List.flatMap_nil, Json.memberText,
      List.append_assoc, List.cons_append, List.nil_append]
  rw [object]
  apply written_object
  · simp only [List.forall_mem_cons]
    exact ⟨rfl, rfl, rfl, rfl, List.forall_mem_nil _⟩
  · simp only [List.forall_mem_cons]
    exact ⟨written_number _, written_number _, written_number _,
      written_number _, List.forall_mem_nil _⟩

theorem written_listing (total page limit : Int) (rows : List ImportRecord) :
    Written ("\x7b\"total\":".toList ++ (toString total).toList ++
      ",\"page\":".toList ++ (toString page).toList ++
      ",\"limit\":".toList ++ (toString limit).toList ++
      ",\"data\":[".toList ++
      [','].intercalate (rows.map recordToJson) ++ "]\x7d".toList) := by
  have object : "\x7b\"total\":".toList ++ (toString total).toList ++
      ",\"page\":".toList ++ (toString page).toList ++
      ",\"limit\":".toList ++ (toString limit).toList ++
      ",\"data\":[".toList ++
      [','].intercalate (rows.map recordToJson) ++ "]\x7d".toList =
        Json.objectText [("total".toList, (toString total).toList),
          ("page".toList, (toString page).toList),
          ("limit".toList, (toString limit).toList),
          ("data".toList, Json.arrayText (rows.map recordToJson))] := by
    have total' : "\x7b\"total\":".toList =
        '\x7b' :: '"' :: "total".toList ++ ['"', ':'] := rfl
    have page' : ",\"page\":".toList =
        ',' :: '"' :: "page".toList ++ ['"', ':'] := rfl
    have limit' : ",\"limit\":".toList =
        ',' :: '"' :: "limit".toList ++ ['"', ':'] := rfl
    have data : ",\"data\":[".toList =
        ',' :: '"' :: "data".toList ++ ['"', ':', '['] := rfl
    have close : "]\x7d".toList = [']', '\x7d'] := rfl
    rw [total', page', limit', data, close, Json.objectText]
    simp only [List.map_cons, List.map_nil, Json.intercalate_cons,
      List.flatMap_cons, List.flatMap_nil, Json.memberText, Json.arrayText,
      List.append_assoc, List.cons_append, List.nil_append]
  rw [object]
  apply written_object
  · simp only [List.forall_mem_cons]
    exact ⟨rfl, rfl, rfl, rfl, List.forall_mem_nil _⟩
  · simp only [List.forall_mem_cons]
    refine ⟨written_number _, written_number _, written_number _, ?_,
      List.forall_mem_nil _⟩
    apply written_array
    intro element listed
    obtain ⟨row, -, rfl⟩ := List.mem_map.mp listed
    exact written_record row

theorem written_pending (rid : Int) (seq : Text) :
    Written ("\x7b\"reconversion_id\":".toList ++ (toString rid).toList ++
      ",\"sequence\":\"".toList ++ jsonEscape seq ++
      "\",\"status\":\"pending\",\"queued_at\":\"\"\x7d".toList) := by
  have object : "\x7b\"reconversion_id\":".toList ++
      (toString rid).toList ++ ",\"sequence\":\"".toList ++
      jsonEscape seq ++
      "\",\"status\":\"pending\",\"queued_at\":\"\"\x7d".toList =
        Json.objectText
          [("reconversion_id".toList, (toString rid).toList),
            ("sequence".toList, '"' :: jsonEscape seq ++ ['"']),
            ("status".toList, '"' :: "pending".toList ++ ['"']),
            ("queued_at".toList, '"' :: [] ++ ['"'])] := by
    have id : "\x7b\"reconversion_id\":".toList =
        '\x7b' :: '"' :: "reconversion_id".toList ++ ['"', ':'] := rfl
    have sequence : ",\"sequence\":\"".toList =
        ',' :: '"' :: "sequence".toList ++ ['"', ':', '"'] := rfl
    have close :
        "\",\"status\":\"pending\",\"queued_at\":\"\"\x7d".toList =
          '"' :: ',' :: '"' :: "status".toList ++ ['"', ':', '"'] ++
            "pending".toList ++ ['"', ',', '"'] ++ "queued_at".toList ++
              ['"', ':', '"', '"', '\x7d'] := rfl
    rw [id, sequence, close, Json.objectText]
    simp only [List.map_cons, List.map_nil, Json.intercalate_cons,
      List.flatMap_cons, List.flatMap_nil, Json.memberText,
      List.append_assoc, List.cons_append, List.nil_append]
  rw [object]
  apply written_object
  · simp only [List.forall_mem_cons]
    exact ⟨rfl, rfl, rfl, rfl, List.forall_mem_nil _⟩
  · simp only [List.forall_mem_cons]
    exact ⟨written_number _, written_string _, written_plain rfl,
      written_plain rfl, List.forall_mem_nil _⟩

end Api

end RawImport
