import RawImport.Lib.Cxx
import RawImport.Pipeline

/-!
# JSON of the API

What `api.cpp` writes of a record, and its extraction of one value from a flat
object.
-/

namespace RawImport

namespace Api

open Cxx Search

/-- `json_escape`. -/
def jsonEscape (s : Text) : Text :=
  s.flatMap fun c =>
    if c = '"' ∨ c = '\\' then ['\\', c]
    else if c = '\n' then "\\n".toList
    else if c = '\r' then "\\r".toList
    else if c = '\t' then "\\t".toList
    else [c]

/-- A member whose value is an escaped string, with the comma behind it. -/
def stringMember (name value : String) : Text :=
  '"' :: name.toList ++ "\":\"".toList ++ jsonEscape value.toList ++
    "\",".toList

/-- `record_to_json`. -/
def recordToJson (r : ImportRecord) : Text :=
  "\x7b".toList ++
    stringMember "sequence" r.sequenceName ++
    stringMember "source_path" r.sourcePath ++
    stringMember "source_hash" r.sourceHash ++
    stringMember "output_path" r.outputPath ++
    stringMember "output_hash" r.outputHash ++
    stringMember "camera_model" r.cameraModel ++
    stringMember "capture_date" r.captureDate ++
    stringMember "capture_time" r.captureTime ++
    stringMember "folder_schema" r.folderSchema ++
    -- the status is written without the escape
    "\"status\":\"".toList ++ r.status.toText.toList ++ "\",".toList ++
    stringMember "created_at" r.createdAt ++
    stringMember "completed_at" r.completedAt ++
    "\"orientation\":".toList ++ (toString r.orientation).toList ++
    "\x7d".toList

/-- The index behind the characters that a loop skips. -/
def skipWhile (skipped : Char → Bool) (body : Text) (pos : Nat) : Nat :=
  pos + ((body.drop pos).takeWhile skipped).length

/-- `json_get`. -/
def jsonGet (body key : Text) : Except StdException Text :=
  let pat := '"' :: key ++ "\":".toList
  match find pat body with
  | none => .ok []
  | some found =>
      let pos := skipWhile (fun c => c == ' ' || c == '\t') body
        (found + pat.length)
      match body[pos]? with
      | none => .ok []
      | some '"' =>
          match findFrom ['"'] body (pos + 1) with
          | none => .ok []
          | some end' => substr body (pos + 1) (sizeSub (sizeSub end' pos) 1)
      | some _ =>
          let end' := skipWhile
            (fun c => c != ',' && c != '\x7d' && c != ' ') body pos
          substr body pos (sizeSub end' pos)

theorem jsonGet_ok (body key : Text) :
    ∃ value, jsonGet body key = .ok value := by
  unfold jsonGet
  dsimp only
  split
  · exact ⟨[], rfl⟩
  · rename_i found occurs
    split
    · exact ⟨[], rfl⟩
    · rename_i quote here
      split
      · exact ⟨[], rfl⟩
      · rename_i closing _
        have inside := (List.getElem?_eq_some_iff.mp here).1
        rw [substr_ok inside]
        exact ⟨_, rfl⟩
    · rename_i here
      have inside := (List.getElem?_eq_some_iff.mp here).1
      rw [substr_ok (Nat.le_of_lt inside)]
      exact ⟨_, rfl⟩

end Api

end RawImport
